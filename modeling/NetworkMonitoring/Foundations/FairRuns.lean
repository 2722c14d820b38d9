import Mathlib.Data.List.Chain
import Mathlib.Logic.Relation
import Mathlib.Order.WellFounded

/-!
# Fair runs

Infinite runs of several parties that work on one state. A party is the relation of its own steps.

* `Run`: each state is followed by itself or by a step;
* `TakesTurns`: a party goes on again and again, unless it cannot;
* `Run.keeps`: what every step keeps, the rest of the run keeps;
* `Run.leads`: a measure that no step raises and the steps of one party lower leads to a goal. Its
  values are well-founded, such as pairs of numbers in their lexicographic order.

When every step lowers a rank, no run has more steps than the rank of its start (`length_le_rank`),
and where there always is a step before the goal, the goal is reached (`exists_goal`).
-/

namespace FairRuns

variable {S : Type*} {step move : S → S → Prop} {σ : ℕ → S} {P Q : S → Prop}
  {α : Type*} [Preorder α]

/-- Each state is followed by itself or by a step. -/
def Run (step : S → S → Prop) (σ : ℕ → S) : Prop :=
  ∀ i, σ (i + 1) = σ i ∨ step (σ i) (σ (i + 1))

/-- Again and again the party takes a step, or there is none that it could take. -/
def TakesTurns (move : S → S → Prop) (σ : ℕ → S) : Prop :=
  ∀ i, ∃ j ≥ i, move (σ j) (σ (j + 1)) ∨ ∀ t, ¬ move (σ j) t

namespace Run

/-- What every step keeps holds from then on. -/
theorem keeps (h : Run step σ) (hstep : ∀ s t, P s → step s t → P t) {i j : ℕ} (hij : i ≤ j)
    (hi : P (σ i)) : P (σ j) := by
  induction hij with
  | refl => exact hi
  | @step j _ ih =>
    rcases h j with heq | hgo
    · exact heq ▸ ih
    · exact hstep _ _ ih hgo

/-- What holds at first and is kept by every step always holds. -/
theorem always (h : Run step σ) (hstart : P (σ 0)) (hstep : ∀ s t, P s → step s t → P t) (i : ℕ) :
    P (σ i) :=
  h.keeps hstep (Nat.zero_le i) hstart

/-- Up to a later state the goal has been reached, or the measure has not gone up. -/
theorem reaches_or_keeps (h : Run step σ) (μ : S → α)
    (hstep : ∀ s t, P s → step s t → Q t ∨ P t ∧ μ t ≤ μ s) {i j : ℕ} (hij : i ≤ j)
    (hi : P (σ i)) : (∃ k ≥ i, Q (σ k)) ∨ P (σ j) ∧ μ (σ j) ≤ μ (σ i) := by
  induction hij with
  | refl => exact .inr ⟨hi, le_rfl⟩
  | @step j hij ih =>
    obtain hgoal | ⟨hj, hle⟩ := ih
    · exact .inl hgoal
    rcases h j with heq | hgo
    · rw [← heq] at hj hle
      exact .inr ⟨hj, hle⟩
    · obtain hgoal | ⟨hnext, hless⟩ := hstep _ _ hj hgo
      · exact .inl ⟨j + 1, Nat.le_succ_of_le hij, hgoal⟩
      · exact .inr ⟨hnext, hless.trans hle⟩

/-- While a party that takes turns can go on, and lowers a measure that nobody raises, the run comes
to the goal. -/
theorem leads [WellFoundedLT α] (h : Run step σ) (hturns : TakesTurns move σ) (μ : S → α)
    (hstep : ∀ s t, P s → step s t → Q t ∨ P t ∧ μ t ≤ μ s)
    (hmove : ∀ s t, P s → move s t → Q t ∨ P t ∧ μ t < μ s) (hcan : ∀ s, P s → ∃ t, move s t)
    {i : ℕ} (hi : P (σ i)) : ∃ j ≥ i, Q (σ j) := by
  -- by induction on the measure: it is lower behind the next turn of the party
  induction hn : μ (σ i) using WellFoundedLT.induction generalizing i with
  | ind n ih =>
    obtain ⟨j, hij, hturn⟩ := hturns i
    obtain hgoal | ⟨hj, hle⟩ := h.reaches_or_keeps μ hstep hij hi
    · exact hgoal
    obtain ⟨t, hgo⟩ := hcan _ hj
    have hmoved := hturn.resolve_right fun hnone => hnone t hgo
    obtain hgoal | ⟨hnext, hlt⟩ := hmove _ _ hj hmoved
    · exact ⟨j + 1, Nat.le_succ_of_le hij, hgoal⟩
    · obtain ⟨k, hk, hgoal⟩ := ih _ (hn ▸ hlt.trans_le hle) hnext rfl
      exact ⟨k, (Nat.le_succ_of_le hij).trans hk, hgoal⟩

end Run

/-! ## Runs along which a rank falls -/

section Ranked

variable (rank : S → ℕ) (hstep : ∀ s t, P s → step s t → P t ∧ rank t < rank s)

include hstep

/-- No run has more steps than the rank of its start. -/
theorem length_le_rank {s : S} {ts : List S} (hs : P s) (h : (s :: ts).IsChain step) :
    ts.length ≤ rank s := by
  induction ts generalizing s with
  | nil => exact Nat.zero_le _
  | cons t ts ih =>
    obtain ⟨hst, hrest⟩ := List.isChain_cons_cons.mp h
    obtain ⟨ht, hlt⟩ := hstep s t hs hst
    have hle := ih ht hrest
    rw [List.length_cons]
    omega

/-- When there always is a step before the goal, some run comes to the goal. -/
theorem exists_goal (hcan : ∀ s, P s → Q s ∨ ∃ t, step s t) {s : S} (hs : P s) :
    ∃ t, Relation.ReflTransGen step s t ∧ Q t := by
  induction hn : rank s using Nat.strong_induction_on generalizing s with
  | _ n ih =>
    obtain hgoal | ⟨t, hst⟩ := hcan s hs
    · exact ⟨s, .refl, hgoal⟩
    · obtain ⟨ht, hlt⟩ := hstep s t hs hst
      obtain ⟨u, htu, hu⟩ := ih _ (hn ▸ hlt) ht rfl
      exact ⟨u, .head hst htu, hu⟩

end Ranked

end FairRuns
