import Mathlib.Data.List.Dedup
import Mathlib.Data.List.Perm.Subperm
import Mathlib.Data.Int.Order.Basic
import Mathlib.Tactic.SplitIfs
import NetworkMonitoring.Foundations.ErrorLoops

/-!
# The periodic samplers

A monitor takes `samplingRateP1` of every `samplingRateP2` packets, at random. `SamplingModule.c` of
softflowd and `Router.cpp` of NSP have the same sampler, but for the loop that fills the table of
choices (`randomChoices`). The random numbers are a list from which a call takes what it needs.

The three critical sections of a call of `RandomPeriodicNodeSampling` are
`getNodeSamplingRateStatus`, `initNodeSamplingRateStatus` and `decisionBlock`.

## Main results

* `generateRandomChoicesForNode_eq`: the table has a 1 at the chosen indices and a 0 elsewhere;
* `count_choiceTable`: as many ones as there are distinct choices.
-/

namespace Sampling

open ErrorLoops

/-- What keeps a call from returning. -/
inductive Stop where
  /-- An index outside the table that is allocated. -/
  | outside
  /-- The table is not finished with the random numbers there are. -/
  | draws
  deriving DecidableEq, Repr

/-- `struct SamplingNode`. -/
structure SamplingNode where
  samplingRateP1 : ℤ
  samplingRateP2 : ℤ
  samplingRateChanged : ℤ := 1
  samplingRateAxis : ℕ := 0
  ipAddr : List UInt8 := []
  /-- The allocated table; `none` is `NULL`. -/
  samplingTab : Option (List ℤ) := none
  sem : ℕ := 1
  deriving DecidableEq, Repr

/-- A rate: `p1` of `p2` packets. -/
structure ValidRate (p1 p2 : ℤ) : Prop where
  nonneg : 0 ≤ p1
  le : p1 ≤ p2
  pos : 1 ≤ p2

namespace SamplingNode

/-- The entries of the table. -/
def tab (sn : SamplingNode) : List ℤ := sn.samplingTab.getD []

/-- `sem_wait`, when the semaphore can be taken. -/
def semWait (sn : SamplingNode) : SamplingNode := { sn with sem := sn.sem - 1 }

/-- `sem_post`. -/
def semPost (sn : SamplingNode) : SamplingNode := { sn with sem := sn.sem + 1 }

/-- The section of `ChangeSamplingRateInNode` and of `Router::ChangeSamplingRate`. -/
def changeSamplingRate (sn : SamplingNode) (p1 p2 : ℤ) : SamplingNode :=
  semPost { sn.semWait with
    samplingRateP1 := p1
    samplingRateP2 := p2
    samplingRateChanged := 1 }

end SamplingNode

/-- Load an entry of the table. -/
def loadTab (tab : List ℤ) (i : ℕ) : Except Stop ℤ :=
  match tab[i]? with
  | some v => .ok v
  | none => .error .outside

/-- Store `v` at an index of the table. -/
def storeTab (v : ℤ) (tab : List ℤ) (i : ℕ) : Except Stop (List ℤ) :=
  if i < tab.length then .ok (tab.set i v) else .error .outside

/-- The indices that get a 1, last one first; `repeats` tells whether a number that has been drawn
before is taken again. -/
def randomChoices (repeats : Bool) (p2 : ℕ) :
    ℕ → List ℕ → List ℕ → Option (List ℕ × List ℕ)
  | 0, taken, draws => some (taken, draws)
  | _ + 1, _, [] => none
  | n + 1, taken, draw :: draws =>
    if !repeats && taken.contains (draw % p2) then randomChoices repeats p2 (n + 1) taken draws
    else randomChoices repeats p2 n (draw % p2 :: taken) draws

/-- The copies of the sampler. -/
inductive Version where
  /-- `SamplingModule.c`. -/
  | softflowd
  /-- `Router.cpp`. -/
  | router
  deriving DecidableEq, Repr

/-- The loop of `GenerateRandomChoicesForNode` that draws the choices. -/
def Version.choices : Version → ℕ → ℕ → List ℕ → List ℕ → Option (List ℕ × List ℕ)
  | .softflowd => randomChoices true
  | .router => randomChoices false

/-- The node that `AddNode` adds. -/
def addNode (version : Version) (ip : List UInt8) : SamplingNode where
  samplingRateP1 := match version with
    | .softflowd => 100
    | .router => 1
  samplingRateP2 := 100
  ipAddr := ip

variable (version : Version)

/-- `GenerateRandomChoicesForNode`. -/
def generateRandomChoicesForNode (sn : SamplingNode) (draws : List ℕ) :
    Except Stop (SamplingNode × List ℕ) := do
  let sn :=
    if sn.samplingRateChanged = 1 then
      -- what `malloc` returns is overwritten before it is read
      { sn with
        samplingTab := some (List.replicate sn.samplingRateP2.toNat 0)
        samplingRateChanged := 0 }
    else sn
  let tab ← (List.range sn.samplingRateP2.toNat).foldlM (storeTab 0) sn.tab
  match version.choices sn.samplingRateP2.toNat sn.samplingRateP1.toNat [] draws with
  | none => .error .draws
  | some (chosen, draws) =>
    let tab ← chosen.reverse.foldlM (storeTab 1) tab
    return ({ sn with samplingTab := some tab }, draws)

/-- `GetNodeSamplingRateStatus`. -/
def getNodeSamplingRateStatus (sn : SamplingNode) : ℤ := sn.samplingRateChanged

/-- `InitNodeSamplingRateStatus`. -/
def initNodeSamplingRateStatus (sn : SamplingNode) : SamplingNode :=
  { sn.semWait with samplingRateAxis := 0 }.semPost

/-- The last section of `RandomPeriodicNodeSampling`. What it returns is `none` when the end of the
function is reached without a `return`, with the semaphore taken. -/
def decisionBlock (sn : SamplingNode) (draws : List ℕ) :
    Except Stop (SamplingNode × Option ℤ × List ℕ) :=
  let sn := sn.semWait
  -- We dont take any packet
  if sn.samplingRateP1 = 0 then .ok (sn.semPost, some 0, draws)
  -- We take all the packets
  else if sn.samplingRateP1 = sn.samplingRateP2 then .ok (sn.semPost, some 1, draws)
  -- We take samplingRateP1 packets over samplingRateP2
  else if sn.samplingRateP1 < sn.samplingRateP2 then
    if sn.samplingRateAxis = 0 then do
      let (sn, draws) ← generateRandomChoicesForNode version sn draws
      let ret ← loadTab sn.tab sn.samplingRateAxis
      return ({ sn with samplingRateAxis := sn.samplingRateAxis + 1 }.semPost, some ret, draws)
    else if sn.samplingRateAxis < sn.samplingRateP2 - 1 then do
      let ret ← loadTab sn.tab sn.samplingRateAxis
      return ({ sn with samplingRateAxis := sn.samplingRateAxis + 1 }.semPost, some ret, draws)
    else if sn.samplingRateAxis = sn.samplingRateP2 - 1 then do
      let ret ← loadTab sn.tab sn.samplingRateAxis
      return ({ sn with samplingRateAxis := 0 }.semPost, some ret, draws)
    else .ok (sn, none, draws)
  -- Invalid Sampling Rate.
  else .ok (sn.semPost, some 0, draws)

/-- `RandomPeriodicNodeSampling`, without a rate change between its sections. -/
def randomPeriodicNodeSampling (sn : SamplingNode) (draws : List ℕ) :
    Except Stop (SamplingNode × Option ℤ × List ℕ) :=
  if getNodeSamplingRateStatus sn = 1 then
    decisionBlock version (initNodeSamplingRateStatus sn) draws
  else decisionBlock version sn draws

/-! ## The table -/

/-- The table with a 1 at the chosen indices. -/
def choiceTable (n : ℕ) (chosen : List ℕ) : List ℤ :=
  (List.range n).map fun i => if i ∈ chosen then 1 else 0

@[simp]
theorem length_choiceTable (n : ℕ) (chosen : List ℕ) : (choiceTable n chosen).length = n := by
  rw [choiceTable, List.length_map, List.length_range]

theorem mem_choiceTable {n : ℕ} {chosen : List ℕ} {v : ℤ} (h : v ∈ choiceTable n chosen) :
    v = 0 ∨ v = 1 := by
  obtain ⟨i, -, rfl⟩ := List.mem_map.mp h
  by_cases hi : i ∈ chosen
  · exact .inr (if_pos hi)
  · exact .inl (if_neg hi)

theorem choiceTable_reverse (n : ℕ) (chosen : List ℕ) :
    choiceTable n chosen.reverse = choiceTable n chosen := by
  simp only [choiceTable, List.mem_reverse]

/-- There are as many ones as distinct choices. -/
theorem count_choiceTable {n : ℕ} {chosen : List ℕ} (h : ∀ i ∈ chosen, i < n) :
    (choiceTable n chosen).count 1 = chosen.dedup.length := by
  have hperm : ((List.range n).filter fun i => decide (i ∈ chosen)).Perm chosen.dedup := by
    apply (List.perm_ext_iff_of_nodup ((List.nodup_range).filter _) (List.nodup_dedup chosen)).mpr
    intro i
    rw [List.mem_filter, List.mem_range, List.mem_dedup, decide_eq_true_eq]
    exact ⟨And.right, fun hi => ⟨h i hi, hi⟩⟩
  rw [← hperm.length_eq, ← List.countP_eq_length_filter, choiceTable, List.count, List.countP_map]
  congr 1
  ext i
  by_cases hi : i ∈ chosen <;> simp [hi]

/-- Storing a value at indices inside the table. -/
theorem foldlM_storeTab (v : ℤ) {is : List ℕ} {tab : List ℤ} (h : ∀ i ∈ is, i < tab.length) :
    ∃ tab', is.foldlM (storeTab v) tab = .ok tab' ∧ tab'.length = tab.length ∧
      ∀ j, j < tab.length → tab'[j]? = if j ∈ is then some v else tab[j]? := by
  induction is generalizing tab with
  | nil => exact ⟨tab, rfl, rfl, fun j _ => (if_neg List.not_mem_nil).symm⟩
  | cons i is ih =>
    have hi : i < tab.length := h i List.mem_cons_self
    have his : ∀ k ∈ is, k < (tab.set i v).length := by
      intro k hk
      rw [List.length_set]
      exact h k (List.mem_cons_of_mem i hk)
    obtain ⟨tab', hrun, hlen, hget⟩ := ih his
    rw [List.length_set] at hlen hget
    refine ⟨tab', ?_, hlen, fun j hj => ?_⟩
    · rw [List.foldlM_cons, storeTab, if_pos hi, ok_bind]
      exact hrun
    · rw [hget j hj, List.getElem?_set]
      -- what is stored later stays, and the index that is stored first may be stored again
      by_cases hmem : j ∈ is
      · rw [if_pos hmem, if_pos (List.mem_cons_of_mem i hmem)]
      · rw [if_neg hmem]
        by_cases heq : i = j
        · subst heq
          rw [if_pos rfl, if_pos hj, if_pos List.mem_cons_self]
        · have hnot : j ∉ i :: is := by
            rw [List.mem_cons, not_or]
            exact ⟨fun h => heq h.symm, hmem⟩
          rw [if_neg heq, if_neg hnot]

/-- Clearing the table and storing the choices. -/
theorem foldlM_storeTab_choices {n : ℕ} {tab : List ℤ} (hlen : tab.length = n) {chosen : List ℕ}
    (h : ∀ i ∈ chosen, i < n) :
    ∃ tab₀, (List.range n).foldlM (storeTab 0) tab = .ok tab₀ ∧
      chosen.foldlM (storeTab 1) tab₀ = .ok (choiceTable n chosen) := by
  subst hlen
  obtain ⟨tab₀, hclear, hlen₀, hget₀⟩ :=
    foldlM_storeTab 0 fun i (hi : i ∈ List.range tab.length) => List.mem_range.mp hi
  rw [← hlen₀] at h
  obtain ⟨tab₁, hstore, hlen₁, hget₁⟩ := foldlM_storeTab 1 h
  refine ⟨tab₀, hclear, ?_⟩
  rw [hstore]
  refine congrArg Except.ok (List.ext_getElem? fun j => ?_)
  by_cases hj : j < tab.length
  · rw [hget₁ j (hlen₀ ▸ hj), hget₀ j hj, if_pos (List.mem_range.mpr hj), choiceTable,
      List.getElem?_map, List.getElem?_range hj]
    by_cases hmem : j ∈ chosen <;> simp [hmem]
  · have hle := Nat.le_of_not_lt hj
    rw [List.getElem?_eq_none (by omega),
      List.getElem?_eq_none (by rw [length_choiceTable]; exact hle)]

/-! ## The choices -/

/-- The choices are in range, and as many as asked for. -/
theorem randomChoices_spec {repeats : Bool} {p2 : ℕ} (hpos : 0 < p2) {n : ℕ}
    {taken draws chosen rest : List ℕ} (htaken : ∀ i ∈ taken, i < p2)
    (h : randomChoices repeats p2 n taken draws = some (chosen, rest)) :
    (∀ i ∈ chosen, i < p2) ∧ chosen.length = taken.length + n := by
  fun_induction randomChoices repeats p2 n taken draws with
  | case1 taken draws =>
    cases h
    exact ⟨htaken, rfl⟩
  | case2 => cases h
  | case3 n taken draw draws hrepeat ih => exact ih htaken h
  | case4 n taken draw draws hrepeat ih =>
    have hstep : ∀ i ∈ draw % p2 :: taken, i < p2 := by
      intro i hi
      rcases List.mem_cons.mp hi with rfl | hi
      · exact Nat.mod_lt draw hpos
      · exact htaken i hi
    obtain ⟨hrange, hlen⟩ := ih hstep h
    refine ⟨hrange, ?_⟩
    rw [hlen, List.length_cons]
    omega

/-- The router takes no number twice. -/
theorem nodup_routerChoices {p2 n : ℕ} {taken draws chosen rest : List ℕ} (htaken : taken.Nodup)
    (h : randomChoices false p2 n taken draws = some (chosen, rest)) : chosen.Nodup := by
  fun_induction randomChoices false p2 n taken draws with
  | case1 taken draws =>
    cases h
    exact htaken
  | case2 => cases h
  | case3 n taken draw draws hrepeat ih => exact ih htaken h
  | case4 n taken draw draws hrepeat ih =>
    apply ih (List.nodup_cons.mpr ⟨?_, htaken⟩) h
    intro hmem
    exact hrepeat (by simpa using hmem)

/-- softflowd takes the next random numbers as they are. -/
theorem softflowdChoices_eq {p2 n : ℕ} {taken draws : List ℕ} :
    randomChoices true p2 n taken draws =
      if n ≤ draws.length then
        some (((draws.take n).map (· % p2)).reverse ++ taken, draws.drop n)
      else none := by
  induction n generalizing taken draws with
  | zero => simp [randomChoices]
  | succ n ih =>
    cases draws with
    | nil => simp [randomChoices]
    | cons draw draws => simp [randomChoices, ih]

/-- The choices of both copies are in range, and as many as the rate says. -/
theorem Version.choices_spec {p1 p2 : ℕ} (hpos : 0 < p2) {draws chosen rest : List ℕ}
    (h : version.choices p2 p1 [] draws = some (chosen, rest)) :
    (∀ i ∈ chosen, i < p2) ∧ chosen.length = p1 := by
  have hnil : ∀ i ∈ ([] : List ℕ), i < p2 := fun i hi => absurd hi List.not_mem_nil
  have hspec : ∃ repeats, randomChoices repeats p2 p1 [] draws = some (chosen, rest) := by
    cases version with
    | softflowd => exact ⟨true, h⟩
    | router => exact ⟨false, h⟩
  obtain ⟨repeats, hchoices⟩ := hspec
  obtain ⟨hrange, hlen⟩ := randomChoices_spec hpos hnil hchoices
  exact ⟨hrange, by rw [hlen, List.length_nil, Nat.zero_add]⟩

/-- The table fits the rate when it is not to be allocated again. -/
def SamplingNode.Fits (sn : SamplingNode) : Prop :=
  sn.samplingRateChanged ≠ 1 → sn.tab.length = sn.samplingRateP2.toNat

/-- A finished table. -/
theorem generateRandomChoicesForNode_eq {sn : SamplingNode} (hfits : sn.Fits)
    (hpos : 0 < sn.samplingRateP2.toNat) (draws : List ℕ) :
    generateRandomChoicesForNode version sn draws =
      match version.choices sn.samplingRateP2.toNat sn.samplingRateP1.toNat [] draws with
      | none => .error .draws
      | some (chosen, rest) =>
        .ok ({ sn with
          samplingTab := some (choiceTable sn.samplingRateP2.toNat chosen)
          samplingRateChanged := if sn.samplingRateChanged = 1 then 0 else sn.samplingRateChanged },
          rest) := by
  -- the table has `P2` entries, newly allocated or not
  obtain ⟨allocated, hallocated, hlen, hp1, hp2⟩ : ∃ sn₁ : SamplingNode,
      sn₁ = (if sn.samplingRateChanged = 1 then
        { sn with
          samplingTab := some (List.replicate sn.samplingRateP2.toNat 0)
          samplingRateChanged := 0 }
        else sn) ∧ sn₁.tab.length = sn.samplingRateP2.toNat ∧
      sn₁.samplingRateP1 = sn.samplingRateP1 ∧ sn₁.samplingRateP2 = sn.samplingRateP2 := by
    refine ⟨_, rfl, ?_⟩
    by_cases hchanged : sn.samplingRateChanged = 1
    · rw [if_pos hchanged]
      exact ⟨List.length_replicate, rfl, rfl⟩
    · rw [if_neg hchanged]
      exact ⟨hfits hchanged, rfl, rfl⟩
  rw [generateRandomChoicesForNode, ← hallocated]
  rw [hp1, hp2]
  cases hchoices : version.choices sn.samplingRateP2.toNat sn.samplingRateP1.toNat [] draws with
  | none =>
    obtain ⟨tab₀, hclear, -⟩ := foldlM_storeTab_choices hlen fun i hi => absurd hi List.not_mem_nil
    rw [hclear]
    rfl
  | some r =>
    obtain ⟨chosen, rest⟩ := r
    obtain ⟨hrange, -⟩ := version.choices_spec hpos hchoices
    have hreverse : ∀ i ∈ chosen.reverse, i < sn.samplingRateP2.toNat :=
      fun i hi => hrange i (List.mem_reverse.mp hi)
    -- it is cleared first, so the entries of the last period do not matter
    obtain ⟨tab₀, hclear, hstore⟩ := foldlM_storeTab_choices hlen hreverse
    rw [hclear, ok_bind]
    dsimp only
    rw [hstore, ok_bind, choiceTable_reverse]
    subst hallocated
    by_cases hchanged : sn.samplingRateChanged = 1
    · rw [if_pos hchanged, if_pos hchanged]
      rfl
    · rw [if_neg hchanged, if_neg hchanged]
      rfl

end Sampling
