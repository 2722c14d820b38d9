import Mathlib.Data.Set.Basic

/-!
# Reading what has been sent

A receiver takes tokens from the front of its input and may stop with an error; beside the input
it has a state of its own. This module is about receivers that find the tokens of a message in
front of them, or only the first ones of these because the input ends too early.

`Transfers x bs a early` says that `x` takes exactly the tokens `bs` off its input and gives `a`,
and that on an input that ends within `bs` it stops, or gives one of the results in `early` and
leaves nothing. Neither changes the state. `Transfers.bind` composes two receivers and
`Transfers.collect` is a loop over the elements of a list that has been sent with its length.

`LeavesRest x` says that `x` takes tokens from the front only, whatever its input is.
-/

namespace Receivers

variable {τ σ ε α β : Type}

/-- A computation that reads a list of tokens, beside a state, and may stop. -/
abbrev Receiver (τ σ ε α : Type) := ExceptT ε (StateM (List τ × σ)) α

namespace Receiver

/-- Run a receiver on an input: how it ends, the rest of the input and the state. -/
def exec (x : Receiver τ σ ε α) (input : List τ) (s : σ) : Except ε α × (List τ × σ) :=
  x.run.run (input, s)

/-- A value needs no input. -/
@[simp]
theorem exec_pure (a : α) (input : List τ) (s : σ) :
    (pure a : Receiver τ σ ε α).exec input s = (.ok a, (input, s)) := rfl

/-- Nor does an exception. -/
@[simp]
theorem exec_throw (e : ε) (input : List τ) (s : σ) :
    (throw e : Receiver τ σ ε α).exec input s = (.error e, (input, s)) := rfl

/-- The second receiver starts where the first one has ended. -/
theorem exec_bind_ok {x : Receiver τ σ ε α} {f : α → Receiver τ σ ε β} {input rest : List τ}
    {s s' : σ} {a : α} (h : x.exec input s = (.ok a, (rest, s'))) :
    (x >>= f).exec input s = (f a).exec rest s' := by
  change (x.run >>= ExceptT.bindCont f).run (input, s) = _
  rw [StateT.run_bind]
  change ((fun p => (ExceptT.bindCont f p.1).run p.2) (x.exec input s) : Id _) = _
  rw [h]
  rfl

/-- It does not start behind an exception. -/
theorem exec_bind_error {x : Receiver τ σ ε α} (f : α → Receiver τ σ ε β) {input rest : List τ}
    {s s' : σ} {e : ε} (h : x.exec input s = (.error e, (rest, s'))) :
    (x >>= f).exec input s = (.error e, (rest, s')) := by
  change (x.run >>= ExceptT.bindCont f).run (input, s) = _
  rw [StateT.run_bind]
  change ((fun p => (ExceptT.bindCont f p.1).run p.2) (x.exec input s) : Id _) = _
  rw [h]
  rfl

/-- Read a list of which the length is known, behind a list that has been read already. -/
def collect (x : Receiver τ σ ε α) : ℕ → List α → Receiver τ σ ε (List α)
  | 0, acc => pure acc
  | n + 1, acc => do
    let a ← x
    collect x n (acc ++ [a])

end Receiver

open Receiver

/-- The receiver stops on this input and leaves the state as it is. -/
def Halts (x : Receiver τ σ ε α) (input : List τ) : Prop :=
  ∀ s, ∃ e rest, x.exec input s = (.error e, (rest, s))

/-- What halts in its first part halts. -/
theorem Halts.bind {x : Receiver τ σ ε α} {input : List τ} (h : Halts x input)
    (f : α → Receiver τ σ ε β) : Halts (x >>= f) input := by
  intro s
  obtain ⟨e, rest, hx⟩ := h s
  exact ⟨e, rest, exec_bind_error f hx⟩

/-- An exception halts. -/
theorem halts_throw (e : ε) (input : List τ) : Halts (throw e : Receiver τ σ ε α) input :=
  fun s => ⟨e, input, exec_throw e input s⟩

/-- The receiver takes the tokens `bs` and gives `a`. On an input that ends within `bs` it stops,
or gives one of the results in `early` and leaves nothing. -/
structure Transfers (x : Receiver τ σ ε α) (bs : List τ) (a : α) (early : Set α) : Prop where
  takes : ∀ rest s, x.exec (bs ++ rest) s = (.ok a, (rest, s))
  cut : ∀ n < bs.length, ∀ s, (∃ e rest, x.exec (bs.take n) s = (.error e, (rest, s))) ∨
    ∃ a' ∈ early, x.exec (bs.take n) s = (.ok a', ([], s))

namespace Transfers

variable {x : Receiver τ σ ε α} {bs cs : List τ} {a : α} {b : β}
  {early : Set α} {late : Set β}

/-- A receiver without early results stops on every input that ends too early. -/
theorem halts (h : Transfers x bs a ∅) {n : ℕ} (hn : n < bs.length) : Halts x (bs.take n) := by
  intro s
  rcases h.cut n hn s with hstop | ⟨a', hmem, -⟩
  · exact hstop
  · exact absurd hmem (Set.notMem_empty a')

/-- A receiver that needs bytes halts without any. -/
theorem halts_nil (h : Transfers x bs a ∅) (hbs : bs ≠ []) : Halts x [] := by
  have hhalts := h.halts (List.length_pos_iff.mpr hbs)
  rwa [List.take_zero] at hhalts

/-- A result without any token. -/
theorem pure (a : α) : Transfers (Pure.pure a : Receiver τ σ ε α) [] a ∅ :=
  ⟨fun rest s => exec_pure a rest s, fun n hn => absurd hn (Nat.not_lt_zero n)⟩

/-- Two messages, one behind the other. The second receiver has to stop when it starts with an
early result of the first. -/
theorem bind {f : α → Receiver τ σ ε β} (hx : Transfers x bs a early)
    (hf : Transfers (f a) cs b late) (hearly : ∀ a' ∈ early, Halts (f a') []) :
    Transfers (x >>= f) (bs ++ cs) b late where
  takes rest s := by
    rw [List.append_assoc, exec_bind_ok (hx.takes (cs ++ rest) s), hf.takes]
  cut n hn s := by
    by_cases hbs : n < bs.length
    -- the input ends in the first message
    · rw [List.take_append_of_le_length hbs.le]
      rcases hx.cut n hbs s with ⟨e, rest, hstop⟩ | ⟨a', hmem, hok⟩
      · exact .inl ⟨e, rest, exec_bind_error f hstop⟩
      · obtain ⟨e, rest, hstop⟩ := hearly a' hmem s
        exact .inl ⟨e, rest, (exec_bind_ok hok).trans hstop⟩
    · rw [List.length_append] at hn
      have htake : (bs ++ cs).take n = bs ++ cs.take (n - bs.length) := by
        rw [List.take_append, List.take_of_length_le (not_lt.mp hbs)]
      rw [htake, exec_bind_ok (hx.takes (cs.take (n - bs.length)) s)]
      exact hf.cut (n - bs.length) (by omega) s

/-- The same when the first receiver has no early results. -/
theorem bind_strict {f : α → Receiver τ σ ε β} (hx : Transfers x bs a ∅)
    (hf : Transfers (f a) cs b late) : Transfers (x >>= f) (bs ++ cs) b late :=
  hx.bind hf fun a' hmem => absurd hmem (Set.notMem_empty a')

/-- A value that arrives is turned into another. -/
theorem map (hx : Transfers x bs a ∅) (f : α → β) :
    Transfers (x >>= fun a => Pure.pure (f a)) bs (f a) ∅ := by
  have h := hx.bind_strict (f := fun a => Pure.pure (f a)) (Transfers.pure (f a))
  rwa [List.append_nil] at h

/-- A list of which the elements have been sent one behind the other. -/
theorem collect {ps : List (List τ × α)} (h : ∀ p ∈ ps, Transfers x p.1 p.2 ∅) (acc : List α) :
    Transfers (x.collect ps.length acc) (ps.flatMap Prod.fst) (acc ++ ps.map Prod.snd) ∅ := by
  induction ps generalizing acc with
  | nil =>
    rw [List.map_nil, List.append_nil]
    exact Transfers.pure acc
  | cons p ps ih =>
    have hrest := ih (fun q hq => h q (List.mem_cons_of_mem p hq)) (acc ++ [p.2])
    rw [List.append_assoc] at hrest
    exact (h p List.mem_cons_self).bind_strict hrest

end Transfers

/-! ## What is left -/

/-- What the receiver leaves is the end of its input. -/
def LeavesRest (x : Receiver τ σ ε α) : Prop := ∀ input s, (x.exec input s).2.1 <:+ input

namespace LeavesRest

/-- A value leaves the input as it is. -/
theorem pure (a : α) : LeavesRest (Pure.pure a : Receiver τ σ ε α) :=
  fun input _ => List.suffix_refl input

/-- So does an exception. -/
theorem throw (e : ε) : LeavesRest (MonadExcept.throw e : Receiver τ σ ε α) :=
  fun input _ => List.suffix_refl input

/-- Two receivers one after the other. -/
theorem bind {x : Receiver τ σ ε α} {f : α → Receiver τ σ ε β} (hx : LeavesRest x)
    (hf : ∀ a, LeavesRest (f a)) : LeavesRest (x >>= f) := by
  intro input s
  have hleft := hx input s
  obtain ⟨⟨res, rest, s'⟩, hrun⟩ : ∃ out, x.exec input s = out := ⟨_, rfl⟩
  rw [hrun] at hleft
  cases res with
  | error e =>
    rw [exec_bind_error f hrun]
    exact hleft
  | ok a =>
    rw [exec_bind_ok hrun]
    exact (hf a rest s').trans hleft

/-- One of two receivers. -/
theorem ite {x y : Receiver τ σ ε α} {p : Prop} [Decidable p] (hx : LeavesRest x)
    (hy : LeavesRest y) : LeavesRest (if p then x else y) := by
  split
  · exact hx
  · exact hy

/-- A receiver that is repeated. -/
theorem collect {x : Receiver τ σ ε α} (h : LeavesRest x) (n : ℕ) (acc : List α) :
    LeavesRest (x.collect n acc) := by
  induction n generalizing acc with
  | zero => exact pure acc
  | succ n ih => exact h.bind fun a => ih (acc ++ [a])

end LeavesRest

end Receivers
