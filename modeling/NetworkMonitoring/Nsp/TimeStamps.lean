import Mathlib.Data.UInt
import NetworkMonitoring.Nsp.PacketQueues

/-!
# NSP — the time between two stamps

`TimeStamp.cpp` takes the difference of two stamps in `WaitBetween`, which sleeps for it, and in
`GetTimeToWaitBetween`, which stores it in a third stamp. Within a second the microseconds are
subtracted; otherwise the difference goes through an `unsigned int` that counts microseconds, which
holds 4294 seconds and a little more. When the stamps are equal there is no difference to take, and
the third stamp keeps what it held.

`getTimeToWaitBetween_exact_iff` says when the difference is exact.
-/

namespace Nsp

namespace TimeStamp

/-- `struct timeval`. -/
structure Timeval where
  tvSec : ℤ
  tvUsec : ℤ
  deriving DecidableEq, Repr

/-- The body of `WaitBetween` and `GetTimeToWaitBetween` up to `result`; the stamps are in order. -/
def timeBetween (t1 t2 : TimeStamp) : Timeval :=
  if t1.second = t2.second then
    { tvSec := 0, tvUsec := (t2.usecond.toNat : ℤ) - t1.usecond.toNat }
  else
    -- the products are `long int`, and the difference becomes an `unsigned int`
    let tmp := UInt32.ofInt (((t2.second.toNat : ℤ) * 1000000 + t2.usecond.toNat) -
      ((t1.second.toNat : ℤ) * 1000000 + t1.usecond.toNat))
    { tvSec := (tmp / 1000000).toNat, tvUsec := (tmp % 1000000).toNat }

/-- `GetTimeToWaitBetween`, by the value it leaves in `t3`. -/
def getTimeToWaitBetween (t1 t2 t3 : TimeStamp) : TimeStamp :=
  if t1.compare t2 > 0 then
    let result := timeBetween t1 t2
    { usecond := UInt32.ofInt result.tvUsec, second := UInt32.ofInt result.tvSec }
  else t3

/-- A call of the system that waits. -/
inductive Wait where
  | usleep (usec : ℤ)
  | sleep (sec : ℤ)
  deriving DecidableEq, Repr

/-- The microseconds a call waits. -/
def Wait.usec : Wait → ℤ
  | usleep usec => usec
  | sleep sec => sec * 1000000

/-- `TIME_CONSUMED_BY_THE_SCHEDULER * 1000000`. -/
def timeConsumedByTheScheduler : ℤ := 1000

/-- `WaitBetween`: the difference, and the calls that wait for it. -/
def waitBetween (t1 t2 : TimeStamp) : Option Timeval × List Wait :=
  if t1.compare t2 > 0 then
    let result := timeBetween t1 t2
    (some result,
      (if result.tvUsec > timeConsumedByTheScheduler then
        [.usleep (result.tvUsec - timeConsumedByTheScheduler)]
      else if result.tvUsec > 0 then [.usleep 1]
      else []) ++
      -- `result.tv_sec - 0.001` is cut off to an `unsigned int`
      if result.tvSec > 0 then [.sleep (result.tvSec - 1)] else [])
  else (none, [])

/-! ## The order of the stamps -/

/-- The microseconds are below a million. -/
def Normalised (ts : TimeStamp) : Prop := ts.usecond < 1000000

instance (ts : TimeStamp) : Decidable ts.Normalised :=
  inferInstanceAs (Decidable (ts.usecond < 1000000))

/-- The stamp in microseconds. -/
def toUsec (ts : TimeStamp) : ℕ := ts.second.toNat * 1000000 + ts.usecond.toNat

variable {t1 t2 t3 : TimeStamp}

theorem Normalised.usecond_lt (h : t1.Normalised) : t1.usecond.toNat < 1000000 :=
  UInt32.lt_iff_toNat_lt.mp h

/-- A normalised stamp is known by its microseconds. -/
theorem Normalised.eq_iff (h1 : t1.Normalised) (h2 : t2.Normalised) :
    t1 = t2 ↔ t1.toUsec = t2.toUsec := by
  constructor
  · intro h
    rw [h]
  · intro h
    have hu1 := h1.usecond_lt
    have hu2 := h2.usecond_lt
    rw [toUsec, toUsec] at h
    have hsecond : t1.second = t2.second := UInt32.toNat_inj.mp (by omega)
    have husecond : t1.usecond = t2.usecond := UInt32.toNat_inj.mp (by omega)
    cases t1
    cases t2
    rw [mk.injEq]
    exact ⟨hsecond, husecond⟩

/-- `Compare` is positive when the second stamp is the later one. -/
theorem Normalised.compare_pos_iff (h1 : t1.Normalised) (h2 : t2.Normalised) :
    t1.compare t2 > 0 ↔ t1.toUsec < t2.toUsec := by
  have hu1 := h1.usecond_lt
  have hu2 := h2.usecond_lt
  simp only [compare, toUsec, UInt32.lt_iff_toNat_lt, ← UInt32.toNat_inj]
  split_ifs <;> omega

/-- It is negative when the second stamp is the earlier one. -/
theorem Normalised.compare_neg_iff (h1 : t1.Normalised) (h2 : t2.Normalised) :
    t1.compare t2 < 0 ↔ t2.toUsec < t1.toUsec := by
  have hu1 := h1.usecond_lt
  have hu2 := h2.usecond_lt
  simp only [compare, toUsec, UInt32.lt_iff_toNat_lt, ← UInt32.toNat_inj]
  split_ifs <;> omega

/-! ## The difference -/

theorem toNat_ofInt (n : ℤ) : (UInt32.ofInt n).toNat = (n % 2 ^ 32).toNat := by
  rw [UInt32.ofInt, UInt32.toNat_ofNat']
  omega

/-- The difference is taken modulo `2 ^ 32` microseconds. -/
theorem timeBetween_eq (h1 : t1.Normalised) (h2 : t2.Normalised) (hlt : t1.toUsec < t2.toUsec) :
    timeBetween t1 t2 =
      { tvSec := ((t2.toUsec - t1.toUsec) % 2 ^ 32 / 1000000 : ℕ)
        tvUsec := ((t2.toUsec - t1.toUsec) % 2 ^ 32 % 1000000 : ℕ) } := by
  have hu1 := h1.usecond_lt
  have hu2 := h2.usecond_lt
  rw [timeBetween]
  by_cases heq : t1.second = t2.second
  · -- within a second the difference is below a million
    rw [toUsec, toUsec, heq] at hlt ⊢
    rw [if_pos rfl, Timeval.mk.injEq]
    omega
  · have htmp : (UInt32.ofInt (((t2.second.toNat : ℤ) * 1000000 + t2.usecond.toNat) -
        ((t1.second.toNat : ℤ) * 1000000 + t1.usecond.toNat))).toNat =
        (t2.toUsec - t1.toUsec) % 2 ^ 32 := by
      rw [toUsec, toUsec] at hlt ⊢
      rw [toNat_ofInt]
      omega
    rw [if_neg heq]
    simp only [UInt32.toNat_div, UInt32.toNat_mod, htmp]
    rfl

/-- `WaitBetween` never waits longer than the difference it has taken. -/
theorem waitBetween_le (h1 : t1.Normalised) (h2 : t2.Normalised) {result : Timeval}
    (h : (waitBetween t1 t2).1 = some result) :
    ((waitBetween t1 t2).2.map Wait.usec).sum ≤ result.tvSec * 1000000 + result.tvUsec := by
  by_cases hcmp : t1.compare t2 > 0
  · rw [waitBetween, if_pos hcmp] at h ⊢
    obtain rfl := Option.some.inj h
    have hsec : 0 ≤ (timeBetween t1 t2).tvSec := by
      rw [timeBetween_eq h1 h2 ((h1.compare_pos_iff h2).mp hcmp)]
      exact Int.natCast_nonneg _
    have husec : 0 ≤ (timeBetween t1 t2).tvUsec := by
      rw [timeBetween_eq h1 h2 ((h1.compare_pos_iff h2).mp hcmp)]
      exact Int.natCast_nonneg _
    dsimp only
    split_ifs <;> simp [Wait.usec, timeConsumedByTheScheduler] at * <;> omega
  · rw [waitBetween, if_neg hcmp] at h
    cases h

/-- `GetTimeToWaitBetween` leaves the normalised difference of the stamps in `t3`, and the
difference that `WaitBetween` takes is the same one; for equal stamps it takes none. -/
structure Exact (t1 t2 t3 : TimeStamp) : Prop where
  normalised : (getTimeToWaitBetween t1 t2 t3).Normalised
  add_eq : t1.toUsec + (getTimeToWaitBetween t1 t2 t3).toUsec = t2.toUsec
  wait_eq : (waitBetween t1 t2).1.getD { tvSec := 0, tvUsec := 0 } =
    { tvSec := (getTimeToWaitBetween t1 t2 t3).second.toNat
      tvUsec := (getTimeToWaitBetween t1 t2 t3).usecond.toNat }

/-- The stamp that is stored when the second one is later. -/
theorem getTimeToWaitBetween_of_lt (h1 : t1.Normalised) (h2 : t2.Normalised)
    (hlt : t1.toUsec < t2.toUsec) (t3 : TimeStamp) :
    (getTimeToWaitBetween t1 t2 t3).second.toNat =
        (t2.toUsec - t1.toUsec) % 2 ^ 32 / 1000000 ∧
      (getTimeToWaitBetween t1 t2 t3).usecond.toNat =
        (t2.toUsec - t1.toUsec) % 2 ^ 32 % 1000000 := by
  rw [getTimeToWaitBetween, if_pos ((h1.compare_pos_iff h2).mpr hlt), timeBetween_eq h1 h2 hlt]
  simp only [toNat_ofInt]
  omega

/-- Of two stamps in order, the difference is exact when it is positive and below `2 ^ 32`
microseconds, or when it is zero and `t3` was zero before. -/
theorem getTimeToWaitBetween_exact_iff (h1 : t1.Normalised) (h2 : t2.Normalised)
    (hle : 0 ≤ t1.compare t2) :
    Exact t1 t2 t3 ↔ (t1 ≠ t2 ∧ t2.toUsec - t1.toUsec < 2 ^ 32) ∨
      (t1 = t2 ∧ t3 = { second := 0, usecond := 0 }) := by
  have hle : t1.toUsec ≤ t2.toUsec := by
    by_contra hgt
    have hneg := (h1.compare_neg_iff h2).mpr (Nat.not_le.mp hgt)
    omega
  rcases Nat.lt_or_eq_of_le hle with hlt | heq
  · have hne : t1 ≠ t2 := fun h => Nat.ne_of_lt hlt (congrArg toUsec h)
    obtain ⟨hsec, husec⟩ := getTimeToWaitBetween_of_lt h1 h2 hlt t3
    rw [or_iff_left fun h => hne h.1, and_iff_right hne]
    constructor
    · intro h
      have hadd := h.add_eq
      rw [toUsec.eq_1 (getTimeToWaitBetween _ _ _), hsec, husec] at hadd
      omega
    · intro hsmall
      refine ⟨?_, ?_, ?_⟩
      · rw [Normalised, UInt32.lt_iff_toNat_lt, husec]
        exact Nat.mod_lt _ (by decide)
      · rw [toUsec.eq_1 (getTimeToWaitBetween _ _ _), hsec, husec]
        omega
      · rw [waitBetween, if_pos ((h1.compare_pos_iff h2).mpr hlt), hsec, husec]
        exact timeBetween_eq h1 h2 hlt
  · -- equal stamps: nothing is stored, and nothing is waited for
    obtain rfl := (h1.eq_iff h2).mpr heq
    have hstored : getTimeToWaitBetween t1 t1 t3 = t3 := by
      rw [getTimeToWaitBetween, t1.compare_self]
      rfl
    have hwait : (waitBetween t1 t1).1 = none := by
      rw [waitBetween, t1.compare_self]
      rfl
    rw [or_iff_right fun h => h.1 rfl, and_iff_right rfl]
    constructor
    · intro h
      have hadd := h.add_eq
      have hzero : Normalised { second := 0, usecond := 0 } := by decide
      have hnorm := h.normalised
      rw [hstored] at hadd hnorm
      rw [hnorm.eq_iff hzero]
      exact Nat.add_eq_left.mp hadd
    · rintro rfl
      refine ⟨?_, ?_, ?_⟩
      · rw [hstored]
        decide
      · rw [hstored]
        exact Nat.add_zero t1.toUsec
      · rw [hstored, hwait]
        rfl

/-- From 1.9 s to 3.2 s the difference is 1.3 s, and not the 7 s that were stored before. -/
theorem getTimeToWaitBetween_exact_at :
    Exact { second := 1, usecond := 900000 } { second := 3, usecond := 200000 }
      { second := 7, usecond := 0 } :=
  (getTimeToWaitBetween_exact_iff (by decide) (by decide) (by decide)).mpr (.inl (by decide))

/-- Equal stamps leave the difference that was stored before, and the stamps 0 s and 4295 s are
taken to be 32704 microseconds apart. -/
theorem getTimeToWaitBetween_not_exact :
    ¬ Exact { second := 5, usecond := 0 } { second := 5, usecond := 0 }
        { second := 1, usecond := 0 } ∧
      ¬ Exact { second := 0, usecond := 0 } { second := 4295, usecond := 0 }
        { second := 0, usecond := 0 } := by
  constructor
  · intro h
    exact absurd h.add_eq (by decide)
  · intro h
    exact absurd h.add_eq (by decide)

end TimeStamp

end Nsp
