import NetworkMonitoring.Sampling.Periods

/-!
# Rate changes during a call

One thread samples packets of a node and any number of others change its rate. A step is a critical
section; between the sections of a call the rate can change.

A call reads whether the rate has changed, puts the axis back to 0 if it has, and decides. A rate
that is set after it has read that nothing has changed can have a period that is not longer than the
axis; then the call runs to its end without a `return`, and keeps the semaphore.

## Main results

* `Runs.safe`: in a run in which every decision finds the axis inside the period, all calls are
  safe; another one is safe exactly when this holds of it, too;
* `Step.inPeriod_of_ready`: only a rate change in front of the decision leaves the axis outside the
  period.
-/

namespace Sampling

open ErrorLoops

/-- Where the sampling thread is. -/
inductive Phase where
  | idle
  /-- The rate has changed, and the axis is to be put back. -/
  | stale
  /-- Only the decision is left of the call. -/
  | ready
  | returned (ret : Option ℤ)
  deriving DecidableEq, Repr

/-- A node with its sampling thread. -/
structure Sampler where
  node : SamplingNode
  phase : Phase := .idle

/-- The critical sections. -/
inductive Section where
  | change (p1 p2 : ℤ)
  | status
  | init
  | decision
  deriving DecidableEq, Repr

/-- One critical section. -/
inductive Step (version : Version) : Section → Sampler → Sampler → Prop
  | change {s : Sampler} {p1 p2 : ℤ} (hrate : ValidRate p1 p2) (hsem : 0 < s.node.sem) :
    Step version (.change p1 p2) s { s with node := s.node.changeSamplingRate p1 p2 }
  | status {s : Sampler} (hphase : s.phase ≠ .stale ∧ s.phase ≠ .ready) (hsem : 0 < s.node.sem) :
    Step version .status s
      { s with phase := if getNodeSamplingRateStatus s.node = 1 then .stale else .ready }
  | init {s : Sampler} (hphase : s.phase = .stale) (hsem : 0 < s.node.sem) :
    Step version .init s ⟨initNodeSamplingRateStatus s.node, .ready⟩
  | decision {s : Sampler} (hphase : s.phase = .ready) (hsem : 0 < s.node.sem) (draws : List ℕ)
    {sn' : SamplingNode} {ret : Option ℤ} {rest : List ℕ}
    (hrun : decisionBlock version s.node draws = .ok (sn', ret, rest)) :
    Step version .decision s ⟨sn', .returned ret⟩

/-- The states of the runs in which `C` holds of the node in front of every decision. -/
inductive Runs (version : Version) (C : SamplingNode → Prop) : Sampler → Prop
  | start (ip : List UInt8) : Runs version C ⟨addNode version ip, .idle⟩
  | step {s s' : Sampler} {sect : Section} (h : Runs version C s) (hstep : Step version sect s s')
    (hdecision : sect = .decision → C s.node) : Runs version C s'

/-- The axis is inside the period, if one is counted. -/
def SamplingNode.InPeriod (sn : SamplingNode) : Prop :=
  0 < sn.samplingRateP1 → sn.samplingRateP1 < sn.samplingRateP2 →
    sn.samplingRateAxis < sn.samplingRateP2

/-- What the calls promise. -/
structure Sampler.Safe (version : Version) (s : Sampler) : Prop where
  /-- A call returns 0 or 1. -/
  ret : ∀ ret, s.phase = .returned ret → ret = some 0 ∨ ret = some 1
  /-- The semaphore is free between the sections. -/
  sem : s.node.sem = 1
  /-- The table is used inside of its bounds. -/
  inside : s.phase = .ready → ∀ draws, decisionBlock version s.node draws ≠ .error .outside

/-! ## The decision -/

/-- The axis is inside the table. -/
def SamplingNode.InTable (sn : SamplingNode) : Prop :=
  sn.samplingRateAxis = 0 ∨ sn.samplingRateAxis < sn.tab.length

/-- What holds of a node between its sections. -/
structure SamplingNode.Inv (sn : SamplingNode) : Prop where
  rate : ValidRate sn.samplingRateP1 sn.samplingRateP2
  status : sn.samplingRateChanged = 0 ∨ sn.samplingRateChanged = 1
  fits : sn.Fits
  values : ∀ v ∈ sn.tab, v = 0 ∨ v = 1
  sem : sn.sem = 1

/-- An entry of the table. -/
theorem loadTab_ok {tab : List ℤ} {i : ℕ} (h : i < tab.length) :
    ∃ v ∈ tab, loadTab tab i = .ok v := by
  refine ⟨tab[i], List.getElem_mem h, ?_⟩
  rw [loadTab, List.getElem?_eq_getElem h]

/-- How a decision ends. -/
inductive Decides (version : Version) (sn : SamplingNode) (draws : List ℕ) : Prop where
  /-- A random number is missing. -/
  | waits (hrun : decisionBlock version sn draws = .error .draws) (hin : sn.InPeriod)
  /-- The packet is taken or not. -/
  | returns {sn' : SamplingNode} {ret : ℤ} {rest : List ℕ}
    (hrun : decisionBlock version sn draws = .ok (sn', some ret, rest)) (hin : sn.InPeriod)
    (hret : ret = 0 ∨ ret = 1) (hinv : sn'.Inv)
    (haxis : sn'.samplingRateChanged ≠ 1 → sn'.InTable)
  /-- The end of the function is reached. -/
  | falls {sn' : SamplingNode} (hrun : decisionBlock version sn draws = .ok (sn', none, draws))
    (hout : ¬ sn.InPeriod) (hsem : sn'.sem = 0)

/-- The extreme rates decide without the table. -/
theorem decides_extreme (version : Version) {sn : SamplingNode} (h : sn.Inv) (haxis : sn.InTable)
    (hextreme : sn.samplingRateP1 = 0 ∨ sn.samplingRateP1 = sn.samplingRateP2) (draws : List ℕ) :
    Decides version sn draws := by
  have hin : sn.InPeriod := by
    intro hzero hlt
    rcases hextreme with heq | heq
    · exact absurd heq hzero.ne'
    · exact absurd heq hlt.ne
  have hinv : sn.semWait.semPost.Inv := by
    refine ⟨h.rate, h.status, h.fits, h.values, ?_⟩
    show sn.sem - 1 + 1 = 1
    rw [h.sem]
  by_cases hzero : sn.samplingRateP1 = 0
  · exact .returns (if_pos hzero) hin (.inl rfl) hinv fun _ => haxis
  · have hrun : decisionBlock version sn draws = .ok (sn.semWait.semPost, some 1, draws) :=
      calc decisionBlock version sn draws = _ := if_neg hzero
        _ = _ := if_pos (hextreme.resolve_left hzero)
    exact .returns hrun hin (.inr rfl) hinv fun _ => haxis

/-- The decision in front of a new table. -/
theorem decides_first (version : Version) {sn : SamplingNode} (h : sn.Inv)
    (hzero : 0 < sn.samplingRateP1) (hlt : sn.samplingRateP1 < sn.samplingRateP2)
    (haxis : sn.samplingRateAxis = 0) (draws : List ℕ) : Decides version sn draws := by
  have hpos : 0 < sn.samplingRateP2.toNat := by omega
  have hin : sn.InPeriod := fun _ _ => by
    rw [haxis]
    omega
  have hblock := decisionBlock_strict version hzero hlt ⟨rfl, rfl⟩ draws
  rw [if_pos haxis] at hblock
  have hgen := generateRandomChoicesForNode_eq version (show sn.semWait.Fits from h.fits) hpos draws
  cases hchoices : version.choices sn.samplingRateP2.toNat sn.samplingRateP1.toNat [] draws with
  | none =>
    refine .waits ?_ hin
    rw [show sn.semWait.samplingRateP1 = sn.samplingRateP1 from rfl,
      show sn.semWait.samplingRateP2 = sn.samplingRateP2 from rfl, hchoices] at hgen
    rw [hblock, hgen]
    rfl
  | some c =>
    obtain ⟨chosen, rest⟩ := c
    rw [show sn.semWait.samplingRateP1 = sn.samplingRateP1 from rfl,
      show sn.semWait.samplingRateP2 = sn.samplingRateP2 from rfl, hchoices] at hgen
    obtain ⟨v, hv, hload⟩ : ∃ v ∈ choiceTable sn.samplingRateP2.toNat chosen,
        loadTab (choiceTable sn.samplingRateP2.toNat chosen) sn.samplingRateAxis = .ok v :=
      loadTab_ok (by rw [length_choiceTable, haxis]; exact hpos)
    -- with the new table the node is as after a change of the rate and one call
    have hunchanged :
        (if sn.samplingRateChanged = 1 then 0 else sn.samplingRateChanged) = 0 := by
      rcases h.status with hs | hs <;> rw [hs] <;> rfl
    have hrun : decisionBlock version sn draws = (do
        let ret ← loadTab (choiceTable sn.samplingRateP2.toNat chosen) sn.samplingRateAxis
        return (({ sn.semWait with
            samplingTab := some (choiceTable sn.samplingRateP2.toNat chosen)
            samplingRateChanged :=
              if sn.samplingRateChanged = 1 then 0 else sn.samplingRateChanged
            samplingRateAxis := sn.samplingRateAxis + 1 } : SamplingNode).semPost, some ret,
            rest)) := by
      rw [hblock, hgen]
      rfl
    rw [hload, ok_bind] at hrun
    refine .returns hrun hin (mem_choiceTable hv) ⟨h.rate, .inl hunchanged, fun _ => ?_, ?_, ?_⟩
      fun _ => .inr ?_
    · exact length_choiceTable _ _
    · exact fun v hv => mem_choiceTable hv
    · show sn.sem - 1 + 1 = 1
      rw [h.sem]
    · show sn.samplingRateAxis + 1 < (choiceTable sn.samplingRateP2.toNat chosen).length
      rw [haxis, length_choiceTable]
      omega

/-- The decision within a period, or behind its end. -/
theorem decides_later (version : Version) {sn : SamplingNode} (h : sn.Inv)
    (hzero : 0 < sn.samplingRateP1) (hlt : sn.samplingRateP1 < sn.samplingRateP2)
    (hpos : sn.samplingRateAxis ≠ 0) (haxis : sn.samplingRateAxis < sn.tab.length)
    (draws : List ℕ) : Decides version sn draws := by
  have hblock := decisionBlock_strict version hzero hlt ⟨rfl, rfl⟩ draws
  obtain ⟨v, hv, hload⟩ := loadTab_ok haxis
  rw [if_neg hpos, hload] at hblock
  have hsem : sn.sem - 1 + 1 = 1 := by rw [h.sem]
  by_cases hin : (sn.samplingRateAxis : ℤ) < sn.samplingRateP2 - 1
  · rw [if_pos hin] at hblock
    refine .returns hblock (fun _ _ => by omega) (h.values v hv)
      ⟨h.rate, h.status, h.fits, h.values, hsem⟩ fun hunchanged => .inr ?_
    have hfits : sn.tab.length = sn.samplingRateP2.toNat := h.fits hunchanged
    show sn.samplingRateAxis + 1 < sn.tab.length
    omega
  · rw [if_neg hin] at hblock
    by_cases hlast : (sn.samplingRateAxis : ℤ) = sn.samplingRateP2 - 1
    · rw [if_pos hlast] at hblock
      exact .returns hblock (fun _ _ => by omega) (h.values v hv)
        ⟨h.rate, h.status, h.fits, h.values, hsem⟩ fun _ => .inl rfl
    · rw [if_neg hlast] at hblock
      refine .falls hblock (fun h => absurd (h hzero hlt) (by omega)) ?_
      show sn.sem - 1 = 0
      rw [h.sem]

theorem decides (version : Version) {sn : SamplingNode} (h : sn.Inv) (haxis : sn.InTable)
    (draws : List ℕ) : Decides version sn draws := by
  by_cases hextreme : sn.samplingRateP1 = 0 ∨ sn.samplingRateP1 = sn.samplingRateP2
  · exact decides_extreme version h haxis hextreme draws
  · rw [not_or] at hextreme
    have hzero := lt_of_le_of_ne h.rate.nonneg (Ne.symm hextreme.1)
    have hlt := lt_of_le_of_ne h.rate.le hextreme.2
    by_cases hfirst : sn.samplingRateAxis = 0
    · exact decides_first version h hzero hlt hfirst draws
    · exact decides_later version h hzero hlt hfirst (haxis.resolve_left hfirst) draws

/-! ## Runs -/

/-- The invariant of the runs. -/
structure Sampler.Inv (s : Sampler) : Prop where
  node : s.node.Inv
  ret : ∀ ret, s.phase = .returned ret → ret = some 0 ∨ ret = some 1
  /-- In front of the decision the axis is inside the table. -/
  ready : s.phase = .ready → s.node.InTable
  /-- So it is between two calls, unless the rate has changed. -/
  between : s.phase ≠ .stale → s.node.samplingRateChanged ≠ 1 → s.node.InTable

theorem Sampler.inv_start (version : Version) (ip : List UInt8) :
    Sampler.Inv ⟨addNode version ip, .idle⟩ where
  node := by
    refine ⟨?_, .inr rfl, fun h => absurd rfl h, fun v hv => absurd hv List.not_mem_nil, rfl⟩
    cases version with
    | softflowd =>
      show ValidRate 100 100
      constructor <;> decide
    | router =>
      show ValidRate 1 100
      constructor <;> decide
  ret := by
    rintro ret ⟨⟩
  ready := by
    rintro ⟨⟩
  between := fun _ h => absurd rfl h

/-- A section keeps the invariant, if a decision finds the axis inside the period. -/
theorem Sampler.Inv.step {version : Version} {sect : Section} {s s' : Sampler} (h : s.Inv)
    (hstep : Step version sect s s') (hdecision : sect = .decision → s.node.InPeriod) : s'.Inv := by
  cases hstep with
  | change hrate hsem =>
    refine ⟨⟨hrate, .inr rfl, fun h => absurd rfl h, h.node.values, ?_⟩, h.ret, h.ready,
      fun _ h => absurd rfl h⟩
    show s.node.sem - 1 + 1 = 1
    rw [h.node.sem]
  | status hphase hsem =>
    refine ⟨h.node, ?_, ?_, ?_⟩
    · intro ret hret
      dsimp only at hret
      split_ifs at hret
    · intro hready
      dsimp only at hready
      split_ifs at hready with hchanged
      exact h.between hphase.1 hchanged
    · exact fun _ => h.between hphase.1
  | init hphase hsem =>
    refine ⟨⟨h.node.rate, h.node.status, h.node.fits, h.node.values, ?_⟩, ?_, fun _ => .inl rfl,
      fun _ _ => .inl rfl⟩
    · show s.node.sem - 1 + 1 = 1
      rw [h.node.sem]
    · rintro ret ⟨⟩
  | decision hphase hsem draws hrun =>
    -- a decision waits, returns or falls out of the function, which the axis inside the period
    -- excludes
    cases decides version h.node (h.ready hphase) draws with
    | waits hrun' => exact absurd (hrun'.symm.trans hrun) error_ne_ok
    | returns hrun' hin hret hinv haxis =>
      cases Except.ok.inj (hrun'.symm.trans hrun)
      refine ⟨hinv, ?_, ?_, fun _ => haxis⟩
      · rintro _ ⟨rfl⟩
        exact hret.imp (congrArg some) (congrArg some)
      · rintro ⟨⟩
    | falls hrun' hout => exact absurd (hdecision rfl) hout

theorem Runs.inv {version : Version} {s : Sampler} (h : Runs version SamplingNode.InPeriod s) :
    s.Inv := by
  induction h with
  | start ip => exact Sampler.inv_start version ip
  | step _ hstep hdecision ih => exact ih.step hstep hdecision

/-- **Samplers under rate changes.** In a run in which every decision finds the axis inside the
period, every call is safe. Another decision then returns 0 or 1 and frees the semaphore if and only
if it finds the axis inside the period, too. -/
theorem Runs.safe {version : Version} {s : Sampler} (h : Runs version SamplingNode.InPeriod s) :
    s.Safe version ∧ (s.phase = .ready → ∀ draws r, decisionBlock version s.node draws = .ok r →
      ((r.2.1 = some 0 ∨ r.2.1 = some 1) ∧ r.1.sem = 1 ↔ s.node.InPeriod)) := by
  have hinv := h.inv
  refine ⟨⟨hinv.ret, hinv.node.sem, fun hready draws => ?_⟩, fun hready draws r hrun => ?_⟩
  · cases decides version hinv.node (hinv.ready hready) draws with
    | waits hrun =>
      rw [hrun]
      decide
    | returns hrun =>
      rw [hrun]
      exact ok_ne_error
    | falls hrun =>
      rw [hrun]
      exact ok_ne_error
  · cases decides version hinv.node (hinv.ready hready) draws with
    | waits hrun' => exact absurd (hrun'.symm.trans hrun) error_ne_ok
    | returns hrun' hin hret hinv' =>
      obtain rfl := Except.ok.inj (hrun'.symm.trans hrun)
      exact iff_of_true ⟨hret.imp (congrArg some) (congrArg some), hinv'.sem⟩ hin
    | falls hrun' hout hsem =>
      obtain rfl := Except.ok.inj (hrun'.symm.trans hrun)
      refine iff_of_false ?_ hout
      rintro ⟨hret | hret, -⟩ <;> cases hret

/-- Only a rate change leaves the axis outside the period in front of a decision. -/
theorem Step.inPeriod_of_ready {version : Version} {sect : Section} {s s' : Sampler} (h : s.Inv)
    (hstep : Step version sect s s') (hchange : ∀ p1 p2, sect ≠ .change p1 p2)
    (hready : s'.phase = .ready) : s'.node.InPeriod := by
  intro hzero hlt
  cases hstep with
  | change hrate hsem => exact absurd rfl (hchange _ _)
  | status hphase hsem =>
    dsimp only at hready hzero hlt ⊢
    split_ifs at hready with hchanged
    have hfits : s.node.tab.length = s.node.samplingRateP2.toNat := h.node.fits hchanged
    rcases h.between hphase.1 hchanged with haxis | haxis
    · rw [haxis]
      omega
    · omega
  | init hphase hsem =>
    show ((0 : ℕ) : ℤ) < _
    exact hzero.trans hlt
  | decision hphase hsem draws hrun => cases hready

theorem Runs.mono {version : Version} {C C' : SamplingNode → Prop} (hC : ∀ sn, C sn → C' sn)
    {s : Sampler} (h : Runs version C s) : Runs version C' s := by
  induction h with
  | start ip => exact .start ip
  | step _ hstep hdecision ih => exact ih.step hstep fun heq => hC _ (hdecision heq)

/-- A node with the rate 1/3 in front of entry `axis` of its table. -/
def thirdNode (version : Version) (axis : ℕ) : SamplingNode :=
  { addNode version [] with
    samplingRateP1 := 1
    samplingRateP2 := 3
    samplingRateChanged := 0
    samplingRateAxis := axis
    samplingTab := some [1, 0, 0] }

/-- The rate of a node is set to 1/3, and a packet is taken. -/
theorem runs_thirdNode (version : Version) :
    Runs version SamplingNode.InPeriod ⟨thirdNode version 1, .returned (some 1)⟩ := by
  have hchange : Runs version SamplingNode.InPeriod
      ⟨(addNode version []).changeSamplingRate 1 3, .idle⟩ :=
    .step (.start []) (.change ⟨by decide, by decide, by decide⟩ Nat.one_pos) fun h => by cases h
  have hstatus : Runs version SamplingNode.InPeriod
      ⟨(addNode version []).changeSamplingRate 1 3, .stale⟩ :=
    hchange.step (.status ⟨by simp, by simp⟩ Nat.one_pos) fun h => by cases h
  have hinit : Runs version SamplingNode.InPeriod
      ⟨initNodeSamplingRateStatus ((addNode version []).changeSamplingRate 1 3), .ready⟩ :=
    hstatus.step (.init rfl Nat.one_pos) fun h => by cases h
  have hrun : decisionBlock version
      (initNodeSamplingRateStatus ((addNode version []).changeSamplingRate 1 3)) [0] =
      .ok (thirdNode version 1, some 1, []) := by
    cases version <;> rfl
  refine hinit.step (.decision rfl Nat.one_pos [0] hrun) fun _ _ _ => ?_
  show ((0 : ℕ) : ℤ) < 3
  decide

/-- Two more calls come to the last entry; the second one has read that nothing has changed. -/
theorem runs_thirdNode_ready (version : Version) :
    Runs version SamplingNode.InPeriod ⟨thirdNode version 2, .ready⟩ := by
  have hstatus : Runs version SamplingNode.InPeriod ⟨thirdNode version 1, .ready⟩ :=
    (runs_thirdNode version).step (.status ⟨by simp, by simp⟩ Nat.one_pos) fun h => by cases h
  have hrun : decisionBlock version (thirdNode version 1) [] =
      .ok (thirdNode version 2, some 0, []) := by
    cases version <;> rfl
  have hdecision :
      Runs version SamplingNode.InPeriod ⟨thirdNode version 2, .returned (some 0)⟩ := by
    refine hstatus.step (.decision rfl Nat.one_pos [] hrun) fun _ _ _ => ?_
    show ((1 : ℕ) : ℤ) < 3
    decide
  exact hdecision.step (.status ⟨by simp, by simp⟩ Nat.one_pos) fun h => by cases h

/-- A run without a rate change in front of a decision. -/
theorem runs_safe_thirdNode :
    Sampler.Safe .router ⟨thirdNode .router 2, .ready⟩ ∧
      (Phase.ready = .ready → ∀ draws r, decisionBlock .router (thirdNode .router 2) draws = .ok r →
        ((r.2.1 = some 0 ∨ r.2.1 = some 1) ∧ r.1.sem = 1 ↔ (thirdNode .router 2).InPeriod)) :=
  (runs_thirdNode_ready .router).safe

/-- A rate change to 1/2 in the third call, behind its look at the status, leaves the semaphore
taken. -/
theorem not_runs_safe :
    ¬ ∀ version s, Runs version (fun _ => True) s → s.Safe version := by
  intro h
  have hready : ∀ version, Runs version (fun _ => True) ⟨thirdNode version 2, .ready⟩ :=
    fun version => (runs_thirdNode_ready version).mono fun _ _ => trivial
  have hchange := (hready .softflowd).step
    (.change (show ValidRate 1 2 from ⟨by decide, by decide, by decide⟩) Nat.one_pos)
    fun _ => trivial
  have hfalls := hchange.step (.decision rfl Nat.one_pos [] rfl) fun _ => trivial
  exact absurd (h _ _ hfalls).sem (by decide)

end Sampling
