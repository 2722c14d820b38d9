import Mathlib.Data.List.Count
import Mathlib.Order.Basic
import NetworkMonitoring.Sampling.Node

/-!
# The periods of a sampler

Calls of `RandomPeriodicNodeSampling` in a row after a rate change. A period starts with a new table
(`AtStart`) and returns its entries one by one (`AtEntry`), so each period has as many ones as the
table.

## Main results

* `router_period`: every period of the router takes `P1` packets;
* `softflowd_period_iff`: a period of softflowd does exactly when the random numbers it draws are
  distinct modulo `P2`.
-/

namespace Sampling

open ErrorLoops

variable (version : Version)

/-- `k` calls in a row, and what they return. -/
def calls : ℕ → SamplingNode → List ℕ → Except Stop (SamplingNode × List (Option ℤ) × List ℕ)
  | 0, sn, draws => .ok (sn, [], draws)
  | k + 1, sn, draws => do
    let (sn, ret, draws) ← randomPeriodicNodeSampling version sn draws
    let (sn, rets, draws) ← calls k sn draws
    return (sn, ret :: rets, draws)

/-- Block `i` of `n` results. -/
def block (n i : ℕ) (rets : List (Option ℤ)) : List (Option ℤ) := (rets.drop (i * n)).take n

theorem calls_succ_ok {k : ℕ} {sn : SamplingNode} {draws : List ℕ}
    {r : SamplingNode × List (Option ℤ) × List ℕ} :
    calls version (k + 1) sn draws = .ok r ↔
      ∃ sn₁ ret draws₁ rets, randomPeriodicNodeSampling version sn draws = .ok (sn₁, ret, draws₁) ∧
        calls version k sn₁ draws₁ = .ok (r.1, rets, r.2.2) ∧ r.2.1 = ret :: rets := by
  rw [calls, bind_eq_ok]
  constructor
  · rintro ⟨⟨sn₁, ret, draws₁⟩, hcall, h⟩
    obtain ⟨⟨sn₂, rets, draws₂⟩, hcalls, h⟩ := bind_eq_ok.mp h
    cases h
    exact ⟨sn₁, ret, draws₁, rets, hcall, hcalls, rfl⟩
  · rintro ⟨sn₁, ret, draws₁, rets, hcall, hcalls, hrets⟩
    refine ⟨(sn₁, ret, draws₁), hcall, bind_eq_ok.mpr ⟨(r.1, rets, r.2.2), hcalls, ?_⟩⟩
    show Except.ok (r.1, ret :: rets, r.2.2) = _
    rw [← hrets]

/-- The calls of a run are those of its two parts. -/
theorem calls_add_ok {a b : ℕ} {sn : SamplingNode} {draws : List ℕ}
    {r : SamplingNode × List (Option ℤ) × List ℕ} (h : calls version (a + b) sn draws = .ok r) :
    ∃ r₁ rets, calls version a sn draws = .ok r₁ ∧
      calls version b r₁.1 r₁.2.2 = .ok (r.1, rets, r.2.2) ∧ r.2.1 = r₁.2.1 ++ rets := by
  induction a generalizing sn draws r with
  | zero =>
    rw [Nat.zero_add] at h
    exact ⟨(sn, [], draws), r.2.1, rfl, h, rfl⟩
  | succ a ih =>
    rw [Nat.succ_add] at h
    obtain ⟨sn₁, ret, draws₁, rets, hcall, hcalls, hrets⟩ := (calls_succ_ok version).mp h
    obtain ⟨r₁, rets', hfirst, hsecond, happend⟩ := ih hcalls
    refine ⟨(r₁.1, ret :: r₁.2.1, r₁.2.2), rets', ?_, hsecond, ?_⟩
    · exact (calls_succ_ok version).mpr ⟨sn₁, ret, draws₁, r₁.2.1, hcall, hfirst, rfl⟩
    · rw [hrets, List.cons_append, ← happend]

theorem length_calls {k : ℕ} {sn : SamplingNode} {draws : List ℕ}
    {r : SamplingNode × List (Option ℤ) × List ℕ} (h : calls version k sn draws = .ok r) :
    r.2.1.length = k := by
  induction k generalizing sn draws r with
  | zero =>
    cases h
    rfl
  | succ k ih =>
    obtain ⟨sn₁, ret, draws₁, rets, -, hcalls, hrets⟩ := (calls_succ_ok version).mp h
    rw [hrets, List.length_cons, ih hcalls]

/-! ## The extreme rates -/

/-- The rate of a node. -/
def SamplingNode.HasRate (sn : SamplingNode) (p1 p2 : ℤ) : Prop :=
  sn.samplingRateP1 = p1 ∧ sn.samplingRateP2 = p2

/-- With the rate `0/p2` no packet is taken, with `p2/p2` every packet. -/
theorem randomPeriodicNodeSampling_extreme {p1 p2 : ℤ} (h : p1 = 0 ∨ p1 = p2) {sn : SamplingNode}
    (hrate : sn.HasRate p1 p2) (draws : List ℕ) :
    ∃ sn', sn'.HasRate p1 p2 ∧ randomPeriodicNodeSampling version sn draws =
      .ok (sn', some (if p1 = 0 then 0 else 1), draws) := by
  have hblock : ∀ sn : SamplingNode, sn.HasRate p1 p2 → ∃ sn', sn'.HasRate p1 p2 ∧
      decisionBlock version sn draws = .ok (sn', some (if p1 = 0 then 0 else 1), draws) := by
    rintro sn ⟨hp1, hp2⟩
    refine ⟨sn.semWait.semPost, ⟨hp1, hp2⟩, ?_⟩
    rw [decisionBlock]
    show (if sn.samplingRateP1 = 0 then _ else if sn.samplingRateP1 = sn.samplingRateP2 then _
      else _) = _
    rw [hp1, hp2]
    by_cases hzero : p1 = 0
    · rw [if_pos hzero, if_pos hzero]
    · rw [if_neg hzero, if_neg hzero, if_pos (h.resolve_left hzero)]
  rw [randomPeriodicNodeSampling]
  by_cases hchanged : getNodeSamplingRateStatus sn = 1
  · rw [if_pos hchanged]
    exact hblock _ hrate
  · rw [if_neg hchanged]
    exact hblock _ hrate

theorem calls_extreme {p1 p2 : ℤ} (h : p1 = 0 ∨ p1 = p2) {sn : SamplingNode}
    (hrate : sn.HasRate p1 p2) (draws : List ℕ) (k : ℕ) :
    ∃ sn', calls version k sn draws =
      .ok (sn', List.replicate k (some (if p1 = 0 then 0 else 1)), draws) := by
  induction k generalizing sn with
  | zero => exact ⟨sn, rfl⟩
  | succ k ih =>
    obtain ⟨sn₁, hrate₁, hcall⟩ := randomPeriodicNodeSampling_extreme version h hrate draws
    obtain ⟨sn', hcalls⟩ := ih hrate₁
    exact ⟨sn', (calls_succ_ok version).mpr ⟨sn₁, _, draws, _, hcall, hcalls, rfl⟩⟩

/-! ## The other rates -/

/-- The next call generates a table. -/
structure AtStart (p1 p2 : ℤ) (sn : SamplingNode) : Prop where
  rate : sn.HasRate p1 p2
  fits : sn.Fits
  axis : sn.samplingRateChanged ≠ 1 → sn.samplingRateAxis = 0

/-- The next call returns entry `j` of the table `t`. -/
structure AtEntry (p1 p2 : ℤ) (j : ℕ) (t : List ℤ) (sn : SamplingNode) : Prop where
  rate : sn.HasRate p1 p2
  unchanged : sn.samplingRateChanged ≠ 1
  axis : sn.samplingRateAxis = j
  tab : sn.samplingTab = some t
  length : t.length = p2.toNat

/-- A rate change makes the next call start a period. -/
theorem atStart_changeSamplingRate (sn : SamplingNode) (p1 p2 : ℤ) :
    AtStart p1 p2 (sn.changeSamplingRate p1 p2) :=
  ⟨⟨rfl, rfl⟩, fun h => absurd rfl h, fun h => absurd rfl h⟩

section Strict

variable {p1 p2 : ℤ} (hzero : 0 < p1) (hlt : p1 < p2)

include hzero hlt

/-- The branch for the rates in between. -/
theorem decisionBlock_strict {sn : SamplingNode} (hrate : sn.HasRate p1 p2) (draws : List ℕ) :
    decisionBlock version sn draws =
      if sn.samplingRateAxis = 0 then do
        let (sn, draws) ← generateRandomChoicesForNode version sn.semWait draws
        let ret ← loadTab sn.tab sn.samplingRateAxis
        return ({ sn with samplingRateAxis := sn.samplingRateAxis + 1 }.semPost, some ret, draws)
      else if sn.samplingRateAxis < p2 - 1 then do
        let ret ← loadTab sn.tab sn.samplingRateAxis
        return ({ sn.semWait with samplingRateAxis := sn.samplingRateAxis + 1 }.semPost, some ret,
          draws)
      else if sn.samplingRateAxis = p2 - 1 then do
        let ret ← loadTab sn.tab sn.samplingRateAxis
        return ({ sn.semWait with samplingRateAxis := 0 }.semPost, some ret, draws)
      else .ok (sn.semWait, none, draws) := by
  obtain ⟨rfl, rfl⟩ := hrate
  calc decisionBlock version sn draws = _ := if_neg hzero.ne'
    _ = _ := if_neg hlt.ne
    _ = _ := if_pos hlt

/-- The first call of a period. -/
theorem AtStart.call {sn : SamplingNode} (h : AtStart p1 p2 sn) (draws : List ℕ) :
    match version.choices p2.toNat p1.toNat [] draws with
    | none => randomPeriodicNodeSampling version sn draws = .error .draws
    | some (chosen, rest) => ∃ sn' ret,
        randomPeriodicNodeSampling version sn draws = .ok (sn', some ret, rest) ∧
        (choiceTable p2.toNat chosen)[0]? = some ret ∧
        AtEntry p1 p2 1 (choiceTable p2.toNat chosen) sn' := by
  have hpos : 0 < p2.toNat := by omega
  -- with the axis put to 0 when the rate has changed
  have hblock : ∀ sn : SamplingNode, sn.HasRate p1 p2 → sn.Fits → sn.samplingRateAxis = 0 →
      match version.choices p2.toNat p1.toNat [] draws with
      | none => decisionBlock version sn draws = .error .draws
      | some (chosen, rest) => ∃ sn' ret,
          decisionBlock version sn draws = .ok (sn', some ret, rest) ∧
          (choiceTable p2.toNat chosen)[0]? = some ret ∧
          AtEntry p1 p2 1 (choiceTable p2.toNat chosen) sn' := by
    intro sn hrate hfits haxis
    rw [decisionBlock_strict version hzero hlt hrate, if_pos haxis]
    have hgen := generateRandomChoicesForNode_eq version (show sn.semWait.Fits from hfits)
      (show 0 < sn.samplingRateP2.toNat by rw [hrate.2]; exact hpos) draws
    rw [show sn.semWait.samplingRateP1 = p1 from hrate.1,
      show sn.semWait.samplingRateP2 = p2 from hrate.2] at hgen
    cases hchoices : version.choices p2.toNat p1.toNat [] draws with
    | none =>
      rw [hchoices] at hgen
      dsimp only at hgen ⊢
      rw [hgen]
      rfl
    | some r =>
      obtain ⟨chosen, rest⟩ := r
      rw [hchoices] at hgen
      obtain ⟨sn₁, hgen₁, hsn₁⟩ : ∃ sn₁, generateRandomChoicesForNode version sn.semWait draws =
          .ok (sn₁, rest) ∧ AtEntry p1 p2 0 (choiceTable p2.toNat chosen) sn₁ := by
        refine ⟨_, hgen, ⟨rfl, rfl⟩, ?_, haxis, rfl, length_choiceTable _ _⟩
        show (if sn.samplingRateChanged = 1 then 0 else sn.samplingRateChanged) ≠ 1
        split_ifs with hchanged
        · decide
        · exact hchanged
      obtain ⟨ret, hret⟩ : ∃ ret, (choiceTable p2.toNat chosen)[0]? = some ret :=
        ⟨_, List.getElem?_eq_getElem (show 0 < (choiceTable p2.toNat chosen).length by
          rw [length_choiceTable]; exact hpos)⟩
      have hload : loadTab sn₁.tab sn₁.samplingRateAxis = .ok ret := by
        rw [loadTab, hsn₁.axis, SamplingNode.tab, hsn₁.tab, Option.getD_some, hret]
      rw [hgen₁, ok_bind]
      dsimp only
      rw [hload]
      exact ⟨_, ret, rfl, hret, hsn₁.rate, hsn₁.unchanged, congrArg (· + 1) hsn₁.axis, hsn₁.tab,
        hsn₁.length⟩
  rw [randomPeriodicNodeSampling]
  by_cases hchanged : getNodeSamplingRateStatus sn = 1
  · rw [if_pos hchanged]
    exact hblock _ h.rate h.fits rfl
  · rw [if_neg hchanged]
    exact hblock sn h.rate h.fits (h.axis hchanged)

omit hzero hlt in
/-- Behind a call within a period the next period starts, or this one goes on. -/
theorem atStart_or_atEntry {sn : SamplingNode} {j : ℕ} {t : List ℤ} (hjlt : j < p2.toNat)
    (h : if j + 1 = p2.toNat then AtStart p1 p2 sn else AtEntry p1 p2 (j + 1) t sn) :
    AtStart p1 p2 sn ∨ ∃ j t, 0 < j ∧ j < p2.toNat ∧ AtEntry p1 p2 j t sn := by
  split_ifs at h with hlast
  · exact .inl h
  · exact .inr ⟨j + 1, t, Nat.succ_pos j, by omega, h⟩

/-- A call within a period. -/
theorem AtEntry.call {sn : SamplingNode} {j : ℕ} {t : List ℤ} (h : AtEntry p1 p2 j t sn)
    (hj : 0 < j) (hjlt : j < p2.toNat) (draws : List ℕ) :
    ∃ sn' ret, randomPeriodicNodeSampling version sn draws = .ok (sn', some ret, draws) ∧
      t[j]? = some ret ∧
      (if j + 1 = p2.toNat then AtStart p1 p2 sn' else AtEntry p1 p2 (j + 1) t sn') := by
  obtain ⟨ret, hret⟩ : ∃ ret, t[j]? = some ret :=
    ⟨_, List.getElem?_eq_getElem (show j < t.length by rw [h.length]; exact hjlt)⟩
  have hload : loadTab sn.tab sn.samplingRateAxis = .ok ret := by
    rw [loadTab, h.axis, SamplingNode.tab, h.tab, Option.getD_some, hret]
  have haxis : sn.samplingRateAxis ≠ 0 := by rw [h.axis]; omega
  have hstatus : ¬ getNodeSamplingRateStatus sn = 1 := h.unchanged
  rw [randomPeriodicNodeSampling, if_neg hstatus, decisionBlock_strict version hzero hlt h.rate,
    if_neg haxis, hload]
  -- the last entry of the table puts the axis back to 0
  by_cases hlast : j + 1 = p2.toNat
  · have hnot : ¬ (sn.samplingRateAxis : ℤ) < p2 - 1 := by rw [h.axis]; omega
    have heq : (sn.samplingRateAxis : ℤ) = p2 - 1 := by rw [h.axis]; omega
    rw [if_neg hnot, if_pos heq]
    refine ⟨_, ret, rfl, hret, ?_⟩
    rw [if_pos hlast]
    refine ⟨h.rate, fun _ => ?_, fun _ => rfl⟩
    show (sn.samplingTab.getD []).length = sn.samplingRateP2.toNat
    rw [h.tab, Option.getD_some, h.length, h.rate.2]
  · have hin : (sn.samplingRateAxis : ℤ) < p2 - 1 := by rw [h.axis]; omega
    rw [if_pos hin]
    refine ⟨_, ret, rfl, hret, ?_⟩
    rw [if_neg hlast]
    exact ⟨h.rate, h.unchanged, congrArg (· + 1) h.axis, h.tab, h.length⟩

/-- The rest of a period returns the rest of the table. -/
theorem AtEntry.calls {sn : SamplingNode} {j : ℕ} {t : List ℤ} (h : AtEntry p1 p2 j t sn)
    (hj : 0 < j) (hjlt : j < p2.toNat) (draws : List ℕ) :
    ∃ sn', Sampling.calls version (p2.toNat - j) sn draws =
      .ok (sn', (t.drop j).map some, draws) ∧ AtStart p1 p2 sn' := by
  obtain ⟨d, hd⟩ : ∃ d, p2.toNat - j = d + 1 := ⟨p2.toNat - j - 1, by omega⟩
  rw [hd]
  induction d generalizing sn j with
  | zero =>
    obtain ⟨sn', ret, hcall, hret, hnext⟩ := h.call version hzero hlt hj hjlt draws
    rw [if_pos (by omega)] at hnext
    refine ⟨sn', (calls_succ_ok version).mpr ⟨sn', some ret, draws, [], hcall, rfl, ?_⟩, hnext⟩
    have hdrop : t.drop (j + 1) = [] := List.drop_eq_nil_of_le (by rw [h.length]; omega)
    rw [List.drop_eq_getElem?_toList_append, hret, hdrop]
    rfl
  | succ d ih =>
    obtain ⟨sn₁, ret, hcall, hret, hnext⟩ := h.call version hzero hlt hj hjlt draws
    rw [if_neg (by omega)] at hnext
    obtain ⟨sn', hcalls, hstart⟩ := ih hnext (by omega) (by omega) (by omega)
    refine ⟨sn', (calls_succ_ok version).mpr ⟨sn₁, some ret, draws, _, hcall, hcalls, ?_⟩, hstart⟩
    rw [List.drop_eq_getElem?_toList_append, hret]
    rfl

/-- A period returns its table. -/
theorem AtStart.calls {sn : SamplingNode} (h : AtStart p1 p2 sn) (draws : List ℕ) :
    match version.choices p2.toNat p1.toNat [] draws with
    | none => Sampling.calls version p2.toNat sn draws = .error .draws
    | some (chosen, rest) => ∃ sn', Sampling.calls version p2.toNat sn draws =
        .ok (sn', (choiceTable p2.toNat chosen).map some, rest) ∧ AtStart p1 p2 sn' := by
  have hfirst := h.call version hzero hlt draws
  obtain ⟨n, hn⟩ : ∃ n, p2.toNat = n + 1 := ⟨p2.toNat - 1, by omega⟩
  cases hchoices : version.choices p2.toNat p1.toNat [] draws with
  | none =>
    rw [hchoices] at hfirst
    dsimp only at hfirst ⊢
    rw [hn, Sampling.calls, hfirst]
    rfl
  | some r =>
    obtain ⟨chosen, rest⟩ := r
    rw [hchoices] at hfirst
    obtain ⟨sn₁, ret, hcall, hret, hentry⟩ := hfirst
    obtain ⟨sn', hcalls, hstart⟩ :=
      hentry.calls version hzero hlt Nat.one_pos (by omega) rest
    refine ⟨sn', ?_, hstart⟩
    rw [show p2.toNat - 1 = n by omega] at hcalls
    -- the table is its first entry, which the first call returns, and the others
    have hcons : (choiceTable p2.toNat chosen).map some =
        some ret :: ((choiceTable p2.toNat chosen).drop 1).map some := by
      rw [← List.map_cons, ← List.singleton_append]
      congr 1
      rw [← Option.toList_some, ← hret, ← List.drop_eq_getElem?_toList_append, List.drop_zero]
    rw [hcons]
    apply Eq.trans (congrArg (Sampling.calls version · sn draws) hn)
    exact (calls_succ_ok version).mpr ⟨sn₁, some ret, rest, _, hcall, hcalls, rfl⟩

/-- Wherever a run is, only the random numbers can run out. -/
theorem calls_ends {sn : SamplingNode}
    (h : AtStart p1 p2 sn ∨ ∃ j t, 0 < j ∧ j < p2.toNat ∧ AtEntry p1 p2 j t sn) (draws : List ℕ)
    (k : ℕ) : Ends (· = .draws) (fun _ => True) (Sampling.calls version k sn draws) := by
  induction k generalizing sn draws with
  | zero => trivial
  | succ k ih =>
    rw [Sampling.calls]
    -- a call in front of a period needs random numbers, the other calls need none
    rcases h with hstart | ⟨j, t, hj, hjlt, hentry⟩
    · have hcall := hstart.call version hzero hlt draws
      cases hchoices : version.choices p2.toNat p1.toNat [] draws with
      | none =>
        rw [hchoices] at hcall
        dsimp only at hcall
        rw [hcall]
        rfl
      | some r =>
        obtain ⟨chosen, rest⟩ := r
        rw [hchoices] at hcall
        obtain ⟨sn₁, ret, hrun, -, hentry⟩ := hcall
        rw [hrun, ok_bind]
        exact (ih (.inr ⟨1, _, Nat.one_pos, by omega, hentry⟩) rest).bind fun _ _ => trivial
    · obtain ⟨sn₁, ret, hrun, -, hnext⟩ := hentry.call version hzero hlt hj hjlt draws
      rw [hrun, ok_bind]
      exact Ends.bind (ih (atStart_or_atEntry hjlt hnext) draws) fun _ _ => trivial

end Strict

/-! ## Blocks of calls -/

/-- The random numbers left after a number of periods. -/
def periodDraws (n m : ℕ) : ℕ → List ℕ → Option (List ℕ)
  | 0, draws => some draws
  | i + 1, draws => (version.choices n m [] draws).bind fun r => periodDraws n m i r.2

/-- Each period of softflowd uses as many random numbers. -/
theorem periodDraws_softflowd {n m i : ℕ} {draws rest : List ℕ}
    (h : periodDraws .softflowd n m i draws = some rest) : rest = draws.drop (i * m) := by
  induction i generalizing draws with
  | zero =>
    cases h
    rw [Nat.zero_mul, List.drop_zero]
  | succ i ih =>
    rw [periodDraws, Version.choices, softflowdChoices_eq] at h
    by_cases hm : m ≤ draws.length
    · rw [if_pos hm] at h
      rw [ih h, List.drop_drop, Nat.succ_mul, Nat.add_comm]
    · rw [if_neg hm] at h
      cases h

variable {version} in
/-- A run that is longer than a period starts with one. -/
theorem calls_period {p1 p2 : ℤ} (hzero : 0 < p1) (hlt : p1 < p2) {sn : SamplingNode}
    (h : AtStart p1 p2 sn) {draws : List ℕ} {k : ℕ} (hk : p2.toNat ≤ k)
    {r : SamplingNode × List (Option ℤ) × List ℕ} (hcalls : calls version k sn draws = .ok r) :
    ∃ chosen rest, version.choices p2.toNat p1.toNat [] draws = some (chosen, rest) ∧
      ∃ sn' rets, AtStart p1 p2 sn' ∧
        calls version (k - p2.toNat) sn' rest = .ok (r.1, rets, r.2.2) ∧
        r.2.1 = (choiceTable p2.toNat chosen).map some ++ rets := by
  rw [show k = p2.toNat + (k - p2.toNat) by omega] at hcalls
  obtain ⟨r₁, rets, hfirst, hrest, happend⟩ := calls_add_ok version hcalls
  have hperiod := h.calls version hzero hlt draws
  cases hchoices : version.choices p2.toNat p1.toNat [] draws with
  | none =>
    rw [hchoices] at hperiod
    exact absurd (hperiod.symm.trans hfirst) error_ne_ok
  | some c =>
    obtain ⟨chosen, rest⟩ := c
    rw [hchoices] at hperiod
    obtain ⟨sn', hrun, hstart⟩ := hperiod
    obtain rfl := Except.ok.inj (hrun.symm.trans hfirst)
    exact ⟨chosen, rest, rfl, sn', rets, hstart, hrest, happend⟩

/-- A block of results is the table of its period. -/
theorem block_calls {p1 p2 : ℤ} (hzero : 0 < p1) (hlt : p1 < p2) {sn : SamplingNode}
    (h : AtStart p1 p2 sn) {draws : List ℕ} {k i : ℕ} (hk : (i + 1) * p2.toNat ≤ k)
    {r : SamplingNode × List (Option ℤ) × List ℕ} (hcalls : calls version k sn draws = .ok r) :
    ∃ ds chosen rest, periodDraws version p2.toNat p1.toNat i draws = some ds ∧
      version.choices p2.toNat p1.toNat [] ds = some (chosen, rest) ∧
      block p2.toNat i r.2.1 = (choiceTable p2.toNat chosen).map some := by
  induction i generalizing sn draws k r with
  | zero =>
    rw [Nat.zero_add, Nat.one_mul] at hk
    obtain ⟨chosen, rest, hchoices, sn', rets, -, -, happend⟩ :=
      calls_period hzero hlt h hk hcalls
    refine ⟨draws, chosen, rest, rfl, hchoices, ?_⟩
    have hlen : ((choiceTable p2.toNat chosen).map some).length = p2.toNat := by
      rw [List.length_map, length_choiceTable]
    rw [block, happend, Nat.zero_mul, List.drop_zero,
      List.take_append_of_le_length (Nat.le_of_eq hlen.symm),
      List.take_of_length_le (Nat.le_of_eq hlen)]
  | succ i ih =>
    have hmul : (i + 1 + 1) * p2.toNat = (i + 1) * p2.toNat + p2.toNat := Nat.succ_mul _ _
    have hmul' : (i + 1) * p2.toNat = i * p2.toNat + p2.toNat := Nat.succ_mul _ _
    -- the first period is over, and block `i` of what is left is block `i + 1` of the whole
    obtain ⟨chosen, rest, hchoices, sn', rets, hstart, hrest, happend⟩ :=
      calls_period hzero hlt h (by omega) hcalls
    obtain ⟨ds, chosen', rest', hds, hchoices', hblock⟩ := ih hstart (by omega) hrest
    refine ⟨ds, chosen', rest', ?_, hchoices', ?_⟩
    · rw [periodDraws, hchoices]
      exact hds
    · rw [← hblock, block, block, happend, List.drop_append,
        List.drop_eq_nil_of_le (by rw [List.length_map, length_choiceTable]; omega),
        List.nil_append, List.length_map, length_choiceTable]
      congr 2
      omega

/-- The distinct choices of a period decide how many packets it takes. -/
theorem count_block {p1 p2 : ℤ} (hzero : 0 < p1) (hlt : p1 < p2) {sn : SamplingNode}
    (h : AtStart p1 p2 sn) {draws : List ℕ} {k i : ℕ} (hk : (i + 1) * p2.toNat ≤ k)
    {r : SamplingNode × List (Option ℤ) × List ℕ} (hcalls : calls version k sn draws = .ok r) :
    ∃ ds chosen rest, periodDraws version p2.toNat p1.toNat i draws = some ds ∧
      version.choices p2.toNat p1.toNat [] ds = some (chosen, rest) ∧
      ((block p2.toNat i r.2.1).count (some 1) = p1.toNat ↔ chosen.Nodup) := by
  obtain ⟨ds, chosen, rest, hds, hchoices, hblock⟩ := block_calls version hzero hlt h hk hcalls
  refine ⟨ds, chosen, rest, hds, hchoices, ?_⟩
  obtain ⟨hrange, hlen⟩ := version.choices_spec (by omega) hchoices
  rw [hblock, List.count_map_of_injective _ _ (fun _ _ => Option.some.inj), count_choiceTable hrange,
    ← hlen]
  constructor
  · intro hcount
    rw [← (List.dedup_sublist chosen).eq_of_length hcount]
    exact List.nodup_dedup chosen
  · intro hnodup
    rw [hnodup.dedup]

/-- The block of a run with one of the extreme rates. -/
theorem count_block_extreme {p1 p2 : ℤ} (h : p1 = 0 ∨ p1 = p2)
    {k i : ℕ} (hk : (i + 1) * p2.toNat ≤ k) :
    (block p2.toNat i (List.replicate k (some (if p1 = 0 then 0 else 1)))).count (some 1) =
      p1.toNat := by
  have hmul : (i + 1) * p2.toNat = i * p2.toNat + p2.toNat := Nat.succ_mul _ _
  rw [block, List.drop_replicate, List.take_replicate, Nat.min_eq_left (by omega)]
  by_cases hzero : p1 = 0
  · rw [if_pos hzero, hzero, List.count_replicate]
    rfl
  · rw [if_neg hzero, h.resolve_left hzero, List.count_replicate_self]

/-- **Each sampling period of the router takes exactly P1 of P2 packets.** Nothing but a lack of
random numbers keeps a run of calls after a rate change from going on, and each of its blocks has
`P1` ones. -/
theorem router_period {p1 p2 : ℤ} (hrate : ValidRate p1 p2) (sn : SamplingNode) (draws : List ℕ)
    (k : ℕ) :
    Ends (· = .draws)
      (fun r => r.2.1.length = k ∧ ∀ i, (i + 1) * p2.toNat ≤ k →
        (block p2.toNat i r.2.1).count (some 1) = p1.toNat)
      (calls .router k (sn.changeSamplingRate p1 p2) draws) := by
  -- the extreme rates need no table
  by_cases hextreme : p1 = 0 ∨ p1 = p2
  · obtain ⟨sn', hcalls⟩ := calls_extreme .router hextreme
      (show (sn.changeSamplingRate p1 p2).HasRate p1 p2 from ⟨rfl, rfl⟩) draws k
    rw [hcalls]
    exact ⟨List.length_replicate, fun i hk => count_block_extreme hextreme hk⟩
  · rw [not_or] at hextreme
    have hzero : 0 < p1 := lt_of_le_of_ne hrate.nonneg (Ne.symm hextreme.1)
    have hlt : p1 < p2 := lt_of_le_of_ne hrate.le hextreme.2
    have hstart := atStart_changeSamplingRate sn p1 p2
    have hends := calls_ends .router hzero hlt (.inl hstart) draws k
    cases hcalls : calls .router k (sn.changeSamplingRate p1 p2) draws with
    | error e =>
      rw [hcalls] at hends
      exact hends
    | ok r =>
      refine ⟨length_calls .router hcalls, fun i hk => ?_⟩
      obtain ⟨ds, chosen, rest, -, hchoices, hcount⟩ :=
        count_block .router hzero hlt hstart hk hcalls
      exact hcount.mpr (nodup_routerChoices List.nodup_nil hchoices)

theorem validRate_two_of_three : ValidRate 2 3 := ⟨by decide, by decide, by decide⟩

/-- Two periods with the rate 2/3, in the second of which a number is drawn twice. -/
theorem router_period_two_of_three :
    (∃ r, calls .router 6 ((addNode .router []).changeSamplingRate 2 3) [4, 2, 7, 1, 5] = .ok r) ∧
      Ends (· = .draws)
        (fun r => r.2.1.length = 6 ∧ ∀ i, (i + 1) * 3 ≤ 6 →
          (block 3 i r.2.1).count (some 1) = 2)
        (calls .router 6 ((addNode .router []).changeSamplingRate 2 3) [4, 2, 7, 1, 5]) :=
  ⟨⟨_, rfl⟩, router_period validRate_two_of_three (addNode .router []) [4, 2, 7, 1, 5] 6⟩

/-! ## softflowd -/

/-- A call of softflowd uses at most `P1` random numbers. -/
theorem softflowd_returns {p1 p2 : ℤ} (hzero : 0 < p1) (hlt : p1 < p2) {sn : SamplingNode}
    (h : AtStart p1 p2 sn ∨ ∃ j t, 0 < j ∧ j < p2.toNat ∧ AtEntry p1 p2 j t sn) {draws : List ℕ}
    {k : ℕ} (hdraws : p1.toNat * k ≤ draws.length) :
    ∃ r, calls .softflowd k sn draws = .ok r := by
  induction k generalizing sn draws with
  | zero => exact ⟨_, rfl⟩
  | succ k ih =>
    rw [Nat.mul_succ] at hdraws
    -- a period takes its `P1` random numbers at its first call
    rcases h with hstart | ⟨j, t, hj, hjlt, hentry⟩
    · have hcall := hstart.call .softflowd hzero hlt draws
      rw [Version.choices, softflowdChoices_eq, if_pos (by omega)] at hcall
      obtain ⟨sn₁, ret, hrun, -, hentry⟩ := hcall
      obtain ⟨r, hcalls⟩ : ∃ r, calls .softflowd k sn₁ (draws.drop p1.toNat) = .ok r :=
        ih (.inr ⟨1, _, Nat.one_pos, by omega, hentry⟩) (by rw [List.length_drop]; omega)
      exact ⟨(r.1, some ret :: r.2.1, r.2.2),
        (calls_succ_ok _).mpr ⟨sn₁, some ret, _, r.2.1, hrun, hcalls, rfl⟩⟩
    · obtain ⟨sn₁, ret, hrun, -, hnext⟩ :=
        hentry.call .softflowd hzero hlt hj hjlt draws
      obtain ⟨r, hcalls⟩ : ∃ r, calls .softflowd k sn₁ draws = .ok r :=
        ih (atStart_or_atEntry hjlt hnext) (by omega)
      exact ⟨(r.1, some ret :: r.2.1, r.2.2),
        (calls_succ_ok _).mpr ⟨sn₁, some ret, draws, r.2.1, hrun, hcalls, rfl⟩⟩

/-- **When a period of softflowd takes P1 of P2 packets.** Calls after a rate change always return.
A block of them has `P1` ones exactly when every packet is taken or the `P1` random numbers drawn at
its start are distinct modulo `P2`. -/
theorem softflowd_period_iff {p1 p2 : ℤ} (hrate : ValidRate p1 p2) (sn : SamplingNode)
    (rand : ℕ → ℕ) (k : ℕ) :
    ∃ r, calls .softflowd k (sn.changeSamplingRate p1 p2)
        ((List.range (p1.toNat * k)).map rand) = .ok r ∧ r.2.1.length = k ∧
      ∀ i, (i + 1) * p2.toNat ≤ k →
        ((block p2.toNat i r.2.1).count (some 1) = p1.toNat ↔
          p1 = p2 ∨
            ((List.range' (i * p1.toNat) p1.toNat).map fun j => rand j % p2.toNat).Nodup) := by
  by_cases hextreme : p1 = 0 ∨ p1 = p2
  · obtain ⟨sn', hcalls⟩ := calls_extreme .softflowd hextreme
      (show (sn.changeSamplingRate p1 p2).HasRate p1 p2 from ⟨rfl, rfl⟩)
      ((List.range (p1.toNat * k)).map rand) k
    refine ⟨_, hcalls, List.length_replicate, fun i hk => ?_⟩
    refine iff_of_true (count_block_extreme hextreme hk) (hextreme.symm.imp_right ?_)
    rintro rfl
    exact List.nodup_nil
  · rw [not_or] at hextreme
    have hzero : 0 < p1 := lt_of_le_of_ne hrate.nonneg (Ne.symm hextreme.1)
    have hlt : p1 < p2 := lt_of_le_of_ne hrate.le hextreme.2
    have hstart := atStart_changeSamplingRate sn p1 p2
    have hlength : ((List.range (p1.toNat * k)).map rand).length = p1.toNat * k := by
      rw [List.length_map, List.length_range]
    obtain ⟨r, hcalls⟩ := softflowd_returns hzero hlt (.inl hstart) (Nat.le_of_eq hlength.symm)
    refine ⟨r, hcalls, length_calls .softflowd hcalls, fun i hk => ?_⟩
    obtain ⟨ds, chosen, rest, hds, hchoices, hcount⟩ :=
      count_block .softflowd hzero hlt hstart hk hcalls
    rw [hcount, or_iff_right hextreme.2]
    -- the numbers of period `i` are those from `i * p1` on
    rw [Version.choices, softflowdChoices_eq] at hchoices
    by_cases hm : p1.toNat ≤ ds.length
    · rw [if_pos hm] at hchoices
      cases hchoices
      rw [List.append_nil, List.nodup_reverse]
      rw [periodDraws_softflowd hds] at hm ⊢
      rw [List.length_drop, List.length_map, List.length_range] at hm
      rw [← List.map_drop, ← List.map_take, List.map_map, List.range_eq_range', List.drop_range',
        List.take_range'_of_length_ge hm, Nat.zero_add, Nat.mul_one]
      rfl
    · rw [if_neg hm] at hchoices
      cases hchoices

/-- Two periods with the rate 2/3; in the second one a number is drawn twice. -/
theorem softflowd_period_two_of_three :
    ∃ r, calls .softflowd 6 ((addNode .softflowd []).changeSamplingRate 2 3)
        ((List.range 12).map (· / 2)) = .ok r ∧ r.2.1.length = 6 ∧
      ∀ i, (i + 1) * 3 ≤ 6 →
        ((block 3 i r.2.1).count (some 1) = 2 ↔
          (2 : ℤ) = 3 ∨ ((List.range' (i * 2) 2).map fun j => j / 2 % 3).Nodup) :=
  softflowd_period_iff validRate_two_of_three (addNode .softflowd []) (· / 2) 6

/-- With the rate 2/3 and a number that is drawn twice, one packet of three is taken. -/
theorem not_softflowd_period :
    ¬ ∀ (p1 p2 : ℤ) (sn : SamplingNode) (draws : List ℕ) (k i : ℕ)
      (r : SamplingNode × List (Option ℤ) × List ℕ), ValidRate p1 p2 →
      calls .softflowd k (sn.changeSamplingRate p1 p2) draws = .ok r → (i + 1) * p2.toNat ≤ k →
      (block p2.toNat i r.2.1).count (some 1) = p1.toNat := by
  intro h
  have hcount := h 2 3 (addNode .softflowd []) [0, 0] 3 0 _ validRate_two_of_three rfl (by decide)
  revert hcount
  decide

end Sampling
