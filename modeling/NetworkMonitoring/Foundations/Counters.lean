import Mathlib.Algebra.BigOperators.Pi
import Mathlib.Algebra.GroupWithZero.Nat
import Mathlib.Algebra.Order.BigOperators.Group.Finset
import Mathlib.Data.Fintype.EquivFin

/-!
# Tables of counters

A table of counters of fixed width, one for each index of a finite type, against the numbers it
stands for. `Exact` says that an addition does not wrap, and then the sum of a table moves by what
is added to one of its counters.
-/

namespace Counters

open Function

/-- The indices of a table with one entry for each byte. -/
instance instFintypeUInt8 : Fintype UInt8 :=
  Fintype.ofBijective UInt8.ofFin
    ⟨fun _ _ h => congrArg UInt8.toFin h, fun x => ⟨x.toFin, rfl⟩⟩

/-- The sum of a table after an addition to one entry. -/
theorem sum_update_add {ι M : Type*} [Fintype ι] [DecidableEq ι] [AddCommMonoid M] (c : ι → M)
    (j : ι) (k : M) : ∑ i, update c j (c j + k) i = ∑ i, c i + k := by
  rw [Finset.sum_update_of_mem (Finset.mem_univ j), add_right_comm,
    Finset.sdiff_singleton_eq_erase, Finset.add_sum_erase _ _ (Finset.mem_univ j)]

/-- A sum that is exact. -/
theorem toNat_add_of_lt {x y : UInt64} (h : x.toNat + y.toNat < 2 ^ 64) :
    (x + y).toNat = x.toNat + y.toNat := by
  rw [UInt64.toNat_add, Nat.mod_eq_of_lt h]

/-- What the counters of a table come to. -/
@[irreducible]
def total {ι : Type*} [Fintype ι] (c : ι → UInt64) : ℕ := ∑ i, (c i).toNat

theorem toNat_le_total {ι : Type*} [Fintype ι] (c : ι → UInt64) (j : ι) :
    (c j).toNat ≤ total c := by
  rw [total]
  exact Finset.single_le_sum (f := fun i => (c i).toNat) (fun _ _ => Nat.zero_le _)
    (Finset.mem_univ j)

@[simp]
theorem total_zero {ι : Type*} [Fintype ι] : total (fun _ : ι => 0) = 0 := by
  rw [total]
  exact Finset.sum_const_zero

theorem total_update {ι : Type*} [Fintype ι] [DecidableEq ι] (c : ι → UInt64) {j : ι} {k : UInt64}
    (h : (c j).toNat + k.toNat < 2 ^ 64) : total (update c j (c j + k)) = total c + k.toNat := by
  have hupdate : (fun i => (update c j (c j + k) i).toNat) =
      update (fun i => (c i).toNat) j ((c j).toNat + k.toNat) := by
    ext i
    by_cases hi : i = j
    · subst hi
      rw [update_self, update_self, toNat_add_of_lt h]
    · rw [update_of_ne hi, update_of_ne hi]
  rw [total, total, hupdate]
  exact sum_update_add (fun i => (c i).toNat) j k.toNat

end Counters
