import Mathlib.Data.List.FinRange
import Mathlib.Data.List.OfFn
import Mathlib.Logic.Function.Basic

/-!
# Tables that are filled from the front

A fixed array `g` of `N` elements with a counter `n`: its first `n` entries are in use.

* `filled g n` is the list of the entries in use.
* `filled_update`: writing entry `n` and moving the counter appends an element.
* `firstSlot` is the linear search for an entry in use, with `firstSlot_eq_some` and
  `firstSlot_eq_none`.
-/

namespace FilledTable

variable {α : Type*} {N : ℕ}

/-- The entries in use. -/
def filled (g : Fin N → α) (n : ℕ) : List α := (List.ofFn g).take n

theorem length_filled {g : Fin N → α} {n : ℕ} (h : n ≤ N) : (filled g n).length = n := by
  simp [filled, h]

@[simp]
theorem filled_zero (g : Fin N → α) : filled g 0 = [] := rfl

theorem getElem?_filled (g : Fin N → α) {n : ℕ} {k : Fin N} (h : k.val < n) :
    (filled g n)[k.val]? = some (g k) := by
  rw [filled, List.getElem?_take_of_lt h, List.getElem?_ofFn, dif_pos k.isLt]

theorem mem_filled {g : Fin N → α} {n : ℕ} {a : α} :
    a ∈ filled g n ↔ ∃ k : Fin N, k.val < n ∧ g k = a := by
  constructor
  · intro h
    obtain ⟨i, hi⟩ := List.mem_iff_getElem?.mp h
    obtain ⟨hlt, hget⟩ := List.getElem?_eq_some_iff.mp hi
    have hlen : i < n ∧ i < N := by simpa [filled] using hlt
    refine ⟨⟨i, hlen.2⟩, hlen.1, ?_⟩
    have hsome := getElem?_filled g (k := ⟨i, hlen.2⟩) hlen.1
    exact Option.some.inj (hsome.symm.trans hi)
  · rintro ⟨k, hk, rfl⟩
    exact List.mem_of_getElem? (getElem?_filled g hk)

/-- In a table without duplicates an element has one slot. -/
theorem slot_unique {g : Fin N → α} {n : ℕ} (h : (filled g n).Nodup) {j k : Fin N}
    (hj : j.val < n) (hk : k.val < n) (heq : g j = g k) : j = k := by
  have hjk : (filled g n)[j.val]? = (filled g n)[k.val]? := by
    rw [getElem?_filled g hj, getElem?_filled g hk, heq]
  have hlt : j.val < (filled g n).length := by
    simpa [filled] using hj
  exact Fin.ext ((List.getElem?_inj hlt h).mp hjk)

/-- Writing behind the entries in use does not change them. -/
theorem filled_update_of_le {g : Fin N → α} {n : ℕ} {k : Fin N} (h : n ≤ k.val) (a : α) :
    filled (Function.update g k a) n = filled g n := by
  refine List.ext_getElem? fun i => ?_
  by_cases hi : i < n
  · have hiN : i < N := Nat.lt_trans (Nat.lt_of_lt_of_le hi h) k.isLt
    have hne : (⟨i, hiN⟩ : Fin N) ≠ k := fun heq => by
      rw [← heq] at h
      exact Nat.not_lt.mpr h hi
    rw [getElem?_filled _ (k := ⟨i, hiN⟩) hi, getElem?_filled _ (k := ⟨i, hiN⟩) hi,
      Function.update_of_ne hne]
  · rw [filled, filled, List.getElem?_take_eq_none (Nat.le_of_not_lt hi),
      List.getElem?_take_eq_none (Nat.le_of_not_lt hi)]

/-- Writing the first free entry. -/
theorem filled_update {g : Fin N → α} {n : ℕ} (h : n < N) (a : α) :
    filled (Function.update g ⟨n, h⟩ a) (n + 1) = filled g n ++ [a] := by
  have hrest : (List.ofFn (Function.update g ⟨n, h⟩ a)).take n = filled g n :=
    filled_update_of_le (k := ⟨n, h⟩) (Nat.le_refl n) a
  rw [filled, List.take_add_one, hrest, List.getElem?_ofFn, dif_pos h, Function.update_self]
  rfl

/-- The entries in use are those with the first indices. -/
theorem filled_eq_map (g : Fin N → α) (n : ℕ) :
    filled g n = ((List.finRange N).take n).map g := by
  rw [filled, List.ofFn_eq_map, List.map_take]

theorem mem_take_finRange {n : ℕ} {k : Fin N} : k ∈ (List.finRange N).take n ↔ k.val < n := by
  have hfilled := mem_filled (g := (id : Fin N → Fin N)) (n := n) (a := k)
  rw [filled_eq_map, List.map_id] at hfilled
  rw [hfilled]
  simp

/-- A loop over the indices in use reads the entries in use. -/
theorem map_range_eq_filled {g : Fin N → α} {n : ℕ} (h : n ≤ N) {k : ℕ → α}
    (hk : ∀ i : Fin N, k i.val = g i) : (List.range n).map k = filled g n := by
  refine List.ext_getElem? fun i => ?_
  by_cases hi : i < n
  · have hget := getElem?_filled g (k := ⟨i, Nat.lt_of_lt_of_le hi h⟩) hi
    rw [hget, List.getElem?_map, List.getElem?_range hi]
    exact congrArg some (hk ⟨i, Nat.lt_of_lt_of_le hi h⟩)
  · rw [List.getElem?_eq_none (by simpa using Nat.le_of_not_lt hi),
      List.getElem?_eq_none (by rw [length_filled h]; exact Nat.le_of_not_lt hi)]

/-- The first entry in use that holds `a`. -/
def firstSlot [DecidableEq α] (g : Fin N → α) (n : ℕ) (a : α) : Option (Fin N) :=
  (List.finRange N).find? fun k => k.val < n ∧ g k = a

theorem firstSlot_eq_some [DecidableEq α] {g : Fin N → α} {n : ℕ} {a : α} {k : Fin N}
    (h : firstSlot g n a = some k) : k.val < n ∧ g k = a := by
  simpa using List.find?_some h

theorem firstSlot_eq_none [DecidableEq α] {g : Fin N → α} {n : ℕ} {a : α} :
    firstSlot g n a = none ↔ a ∉ filled g n := by
  rw [mem_filled, firstSlot, List.find?_eq_none]
  simp

/-- In a table without duplicates the search finds the slot of an element. -/
theorem firstSlot_eq [DecidableEq α] {g : Fin N → α} {n : ℕ} (h : (filled g n).Nodup)
    {k : Fin N} (hk : k.val < n) : firstSlot g n (g k) = some k := by
  cases hfind : firstSlot g n (g k) with
  | none => exact absurd (mem_filled.mpr ⟨k, hk, rfl⟩) (firstSlot_eq_none.mp hfind)
  | some j =>
    obtain ⟨hj, heq⟩ := firstSlot_eq_some hfind
    rw [slot_unique h hj hk heq]

/-- The search for another element does not see the entry that has been written. -/
theorem firstSlot_update_ne [DecidableEq α] {g : Fin N → α} {n : ℕ} (h : n < N) {a b : α}
    (hne : b ≠ a) :
    firstSlot (Function.update g ⟨n, h⟩ a) (n + 1) b = firstSlot g n b := by
  unfold firstSlot
  congr 1
  ext k
  by_cases hk : k = ⟨n, h⟩
  · simp [hk, hne.symm]
  · have hval : k.val ≠ n := fun heq => hk (Fin.ext heq)
    have hlt : k.val < n + 1 ↔ k.val < n := by omega
    simp only [Function.update_of_ne hk, hlt]

/-- The search for the element that has been written behind the entries in use. -/
theorem firstSlot_update_self [DecidableEq α] {g : Fin N → α} {n : ℕ} (h : n < N) {a : α}
    (hnew : a ∉ filled g n) :
    firstSlot (Function.update g ⟨n, h⟩ a) (n + 1) a = some ⟨n, h⟩ := by
  cases hfind : firstSlot (Function.update g ⟨n, h⟩ a) (n + 1) a with
  | none =>
    refine absurd ?_ (firstSlot_eq_none.mp hfind)
    rw [filled_update]
    exact List.mem_append_right _ List.mem_cons_self
  | some k =>
    obtain ⟨hk, heq⟩ := firstSlot_eq_some hfind
    by_cases hkn : k = ⟨n, h⟩
    · rw [hkn]
    · have hval : k.val ≠ n := fun hv => hkn (Fin.ext hv)
      rw [Function.update_of_ne hkn] at heq
      exact absurd (mem_filled.mpr ⟨k, by omega, heq⟩) hnew

end FilledTable
