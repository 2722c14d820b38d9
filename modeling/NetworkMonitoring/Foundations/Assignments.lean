import Mathlib.Tactic.Common

/-!
# Keys that are assigned to owners

A relation says which owner has which key. A step looks up the owners of two keys, and gives a key
that has no owner yet to one (`Assigns`); a run does so again and again.

* `Run.owned`: behind a run every key that has been looked up belongs to the owner it was given.
* `Run.singleValued_iff`: no key gets a second owner exactly when no step gives one key to two
  owners.
-/

namespace Assignments

variable {N K : Type*} {H H' : N → K → Prop} {k k' : K} {n n' : N}

/-- No key has two owners. -/
def SingleValued (H : N → K → Prop) : Prop := ∀ k n n', H n k → H n' k → n = n'

/-- A step: `k` belongs to `n` and `k'` to `n'`, and nothing else is new. A key that had an owner is
given to nobody else. -/
structure Assigns (H : N → K → Prop) (k k' : K) (n n' : N) (H' : N → K → Prop) : Prop where
  iff : ∀ m x, H' m x ↔ H m x ∨ (∀ i, ¬ H i x) ∧ (x = k ∧ m = n ∨ x = k' ∧ m = n')
  left : H' n k
  right : H' n' k'

theorem Assigns.mono (h : Assigns H k k' n n' H') {m : N} {x : K} (hm : H m x) : H' m x :=
  (h.iff m x).mpr (.inl hm)

theorem Assigns.singleValued (h : Assigns H k k' n n' H') (hH : SingleValued H)
    (heq : k = k' → n = n') : SingleValued H' := by
  intro x m m' hm hm'
  rw [h.iff] at hm hm'
  rcases hm with hold | ⟨hnone, hm⟩ <;> rcases hm' with hold' | ⟨hnone', hm'⟩
  · exact hH x m m' hold hold'
  · exact absurd hold (hnone' m)
  · exact absurd hold' (hnone m')
  · rcases hm with ⟨rfl, rfl⟩ | ⟨rfl, rfl⟩ <;> rcases hm' with ⟨hk, rfl⟩ | ⟨hk, rfl⟩
    · rfl
    · exact heq hk
    · exact (heq hk.symm).symm
    · rfl

/-- If `k` has an owner in `H` it is `n`, and nothing changes; otherwise `k` is given to `n` in what
`H₁` says so far. -/
def Gives (H : N → K → Prop) (k : K) (n : N) (H₁ H₂ : N → K → Prop) : Prop :=
  H n k ∧ H₂ = H₁ ∨ (∀ m, ¬ H m k) ∧ ∀ m x, H₂ m x ↔ H₁ m x ∨ m = n ∧ x = k

/-- Two keys are looked up before they are given to owners, one after the other. -/
theorem Assigns.of_gives {H₁ H₂ : N → K → Prop} (h : Gives H k n H H₁) (h' : Gives H k' n' H₁ H₂) :
    Assigns H k k' n n' H₂ := by
  have hiff : ∀ m x, H₂ m x ↔ H m x ∨ (∀ i, ¬ H i x) ∧ (x = k ∧ m = n ∨ x = k' ∧ m = n') := by
    intro m x
    rcases h with ⟨hown, rfl⟩ | ⟨hnone, hadd⟩ <;> rcases h' with ⟨hown', rfl⟩ | ⟨hnone', hadd'⟩
    all_goals grind
  refine ⟨hiff, ?_, ?_⟩
  · rcases h with ⟨hown, -⟩ | ⟨hnone, -⟩
    · exact (hiff n k).mpr (.inl hown)
    · exact (hiff n k).mpr (.inr ⟨hnone, .inl ⟨rfl, rfl⟩⟩)
  · rcases h' with ⟨hown, -⟩ | ⟨hnone, -⟩
    · exact (hiff n' k').mpr (.inl hown)
    · exact (hiff n' k').mpr (.inr ⟨hnone, .inr ⟨rfl, rfl⟩⟩)

/-- A key that is looked up twice and given once. -/
theorem Assigns.of_gives_self (h : Gives H k n H H') : Assigns H k k n n H' := by
  rcases h with ⟨hown, rfl⟩ | ⟨hnone, hadd⟩
  · exact .of_gives (.inl ⟨hown, rfl⟩) (.inl ⟨hown, rfl⟩)
  · refine ⟨fun m x => ?_, (hadd n k).mpr (.inr ⟨rfl, rfl⟩), (hadd n k).mpr (.inr ⟨rfl, rfl⟩)⟩
    rw [hadd, or_self_iff]
    refine or_congr_right ⟨?_, fun ⟨_, hx, hm⟩ => ⟨hm, hx⟩⟩
    rintro ⟨rfl, rfl⟩
    exact ⟨hnone, rfl, rfl⟩

/-- A run, with the keys that are looked up and the owners they are given. -/
inductive Run : (N → K → Prop) → List ((K × K) × N × N) → (N → K → Prop) → Prop
  | nil (H : N → K → Prop) : Run H [] H
  | cons {H H' H'' : N → K → Prop} {k k' : K} {n n' : N} {steps : List ((K × K) × N × N)} :
      Assigns H k k' n n' H' → Run H' steps H'' → Run H (((k, k'), n, n') :: steps) H''

variable {steps : List ((K × K) × N × N)}

theorem Run.mono (h : Run H steps H') {m : N} {x : K} (hm : H m x) : H' m x := by
  induction h with
  | nil => exact hm
  | cons hstep _ ih => exact ih (hstep.mono hm)

/-- What has been given to an owner stays with it. -/
theorem Run.owned (h : Run H steps H') {s : (K × K) × N × N} (hs : s ∈ steps) :
    H' s.2.1 s.1.1 ∧ H' s.2.2 s.1.2 := by
  induction h with
  | nil => cases hs
  | cons hstep hrest ih =>
    rcases List.mem_cons.mp hs with rfl | hs
    · exact ⟨hrest.mono hstep.left, hrest.mono hstep.right⟩
    · exact ih hs

/-- No key gets two owners exactly when no step gives it two. -/
theorem Run.singleValued_iff (h : Run H steps H') (hH : SingleValued H) :
    SingleValued H' ↔ ∀ s ∈ steps, s.1.1 = s.1.2 → s.2.1 = s.2.2 := by
  constructor
  · intro hsv s hs heq
    obtain ⟨hleft, hright⟩ := h.owned hs
    exact hsv s.1.1 s.2.1 s.2.2 hleft (heq ▸ hright)
  · intro hall
    induction h with
    | nil => exact hH
    | cons hstep _ ih =>
      exact ih (hstep.singleValued hH (hall _ List.mem_cons_self))
        fun s hs => hall s (List.mem_cons_of_mem _ hs)

end Assignments
