import Mathlib.Tactic.Linarith
import Mathlib.Tactic.Positivity
import NetworkMonitoring.Estimation.Monitors
import NetworkMonitoring.Sampling.ControlMessages

/-!
# Estimation — the sampling rates are reconfigured

`reconfigurer` of `GlobalEstimation.c` raises the rates of all monitors when there was no overhead,
and lowers the rates of those that contribute little to the variance when there was. The step is
the larger the further the overhead is from its threshold, but at most 3.

## Main result

* `RateRuns.ratesValid`: the rates stay between 0.0005 and 0.999, whatever has been observed, so
  every rate that is sent is valid and no quotient with `1 - p` is one by 0.
-/

namespace Estimation

open CText

def minSR : ℚ := 0.0005
def maxSR : ℚ := 0.999

/-- The factor `stepp`, which is also `stepp_des`. -/
def stepp (threshold : ℤ) (sizeval : UInt64) (lcompteur : ℤ) : ℚ :=
  let ovh : ℚ := sizeval.toNat / lcompteur
  let interm := 1 + 2 * |(threshold - ovh) / threshold|
  if interm < 3 then interm else 3

/-- The control message of a monitor. -/
def controlMessage (taux : ℚ) (m : UnMoniteur) : Sampling.RateChange where
  p1 := truncate (taux * 10000)
  p2 := 10000
  monitorIp := m.adresse

/-- The rate of a monitor without overhead. -/
def raisedRate (step : ℚ) (m : UnMoniteur) : ℚ :=
  if m.samplingRate > maxSR / step then maxSR else m.samplingRate * step

/-- The rate of a monitor that is lowered. -/
def loweredRate (step : ℚ) (m : UnMoniteur) : ℚ :=
  if m.samplingRate < step * minSR then minSR else m.samplingRate / step

/-- Whether two observations are of one AS pair. -/
def MonitorObservation.sameAses (mo mo2 : MonitorObservation) : Bool :=
  mo2.srcAs == mo.srcAs && mo2.dstAs == mo.dstAs

/-- The inner loop: the sum over the observations of the AS pair of `mo`, which are marked. -/
def sumObservations (mo : MonitorObservation) :
    List MonitorObservation → ℚ → List MonitorObservation × ℚ
  | [], somm => ([], somm)
  | mo2 :: rest, somm =>
    if mo.sameAses mo2 = true then
      let r := sumObservations mo rest (somm + mo2.sF.toNat / (mo2.alphaF * mo2.alphaF))
      ({ mo2 with used := true } :: r.1, r.2)
    else
      let r := sumObservations mo rest somm
      (mo2 :: r.1, r.2)

theorem length_sumObservations (mo : MonitorObservation) (obs : List MonitorObservation)
    (somm : ℚ) :
    (sumObservations mo obs somm).1.length = obs.length := by
  induction obs generalizing somm with
  | nil => rfl
  | cons mo2 rest ih =>
    rw [sumObservations]
    split <;> simp [ih]

/-- The loop over the observations of a monitor with the rate `pj`; `valsji` keeps its value where
all observations are marked. `resultat` are the estimated packet numbers of the AS pairs. -/
def deltaLoop (resultat : UInt32 → UInt32 → UInt64) (pj : ℚ) (obs : List MonitorObservation)
    (valsji : ℚ) : List MonitorObservation × ℚ :=
  match obs with
  | [] => ([], valsji)
  | mo :: rest =>
    if mo.used = true then
      let r := deltaLoop resultat pj rest valsji
      (mo :: r.1, r.2)
    else
      -- mo2 starts at mo
      let somm := 0 + mo.sF.toNat / (mo.alphaF * mo.alphaF)
      let marked := sumObservations mo rest somm
      let packetNumber := resultat mo.srcAs mo.dstAs
      let val := pj / ((1 - pj) * (1 - pj))
      let valsji := val * (marked.2 / (packetNumber * packetNumber).toNat)
      let r := deltaLoop resultat pj marked.1 valsji
      ({ mo with used := true } :: r.1, r.2)
termination_by obs.length
decreasing_by
  · simp
  · rw [length_sumObservations]
    simp

/-- What the loop over the monitors changes: `valsji`, `les_deltaVar` and the observations. -/
structure DeltaState where
  valsji : ℚ := 0
  lesDeltaVar : Fin nombreMoniteurs → ℚ
  lesMoniteurs : LesMoniteurs

/-- An iteration of that loop. -/
def deltaStep (resultat : UInt32 → UInt32 → UInt64) (s : DeltaState) (l : Fin nombreMoniteurs) :
    DeltaState :=
  let m := s.lesMoniteurs l
  if m.lesObservations ≠ [] then
    let r := deltaLoop resultat m.samplingRate m.lesObservations s.valsji
    { valsji := r.2
      lesDeltaVar := Function.update s.lesDeltaVar l (s.lesDeltaVar l + r.2)
      lesMoniteurs := Function.update s.lesMoniteurs l { m with lesObservations := r.1 } }
  else { s with lesDeltaVar := Function.update s.lesDeltaVar l 0 }

/-- The loop that gives monitors a new rate and sends it. -/
def changeRates (chosen : Fin nombreMoniteurs → Bool) (rate : UnMoniteur → ℚ) (ms : LesMoniteurs) :
    LesMoniteurs × List Sampling.RateChange :=
  (fun l => if chosen l = true then { ms l with samplingRate := rate (ms l) } else ms l,
    (moniteurs.filter chosen).map fun l => controlMessage (rate (ms l)) (ms l))

/-- `reconfigurer`: the monitors and the messages it sends. `stack` is what `les_deltaVar` holds
before it is assigned. -/
def reconfigurer (threshold : ℤ) (sizeval : UInt64) (resultat : UInt32 → UInt32 → UInt64)
    (stack : Fin nombreMoniteurs → ℚ) (loverhead lcompteur : ℤ) (ms : LesMoniteurs) :
    LesMoniteurs × List Sampling.RateChange :=
  let step := stepp threshold sizeval lcompteur
  if loverhead = 0 then changeRates (fun _ => true) (raisedRate step) ms
  else if loverhead = 1 then
    let s := moniteurs.foldl (deltaStep resultat) { lesDeltaVar := stack, lesMoniteurs := ms }
    let laSomme := (moniteurs.map s.lesDeltaVar).sum
    let moyenne := laSomme / nombreMoniteurs
    changeRates (fun l => s.lesDeltaVar l < moyenne) (loweredRate step) s.lesMoniteurs
  else (ms, [])

/-! ## One change -/

/-- A rate that is neither too low nor too high. -/
structure RateInRange (p : ℚ) : Prop where
  min_le : minSR ≤ p
  le_max : p ≤ maxSR

theorem RateInRange.one_sub_ne_zero {p : ℚ} (h : RateInRange p) : 1 - p ≠ 0 := by
  have hlt : p < 1 := lt_of_le_of_lt h.le_max (by norm_num [maxSR])
  exact (sub_pos.mpr hlt).ne'

/-- The step does not turn a change around. -/
theorem one_le_stepp (threshold : ℤ) (sizeval : UInt64) (lcompteur : ℤ) :
    1 ≤ stepp threshold sizeval lcompteur := by
  rw [stepp]
  split
  · have habs := abs_nonneg ((threshold - (sizeval.toNat / lcompteur : ℚ)) / threshold)
    linarith
  · norm_num

variable {step : ℚ} {m : UnMoniteur}

theorem RateInRange.raisedRate (h : RateInRange m.samplingRate) (hstep : 1 ≤ step) :
    RateInRange (raisedRate step m) := by
  have hpos : 0 < step := lt_of_lt_of_le one_pos hstep
  rw [Estimation.raisedRate]
  by_cases hcap : m.samplingRate > maxSR / step
  · rw [if_pos hcap]
    exact ⟨by norm_num [minSR, maxSR], le_rfl⟩
  · rw [if_neg hcap]
    have hmin : 0 ≤ m.samplingRate := le_trans (by norm_num [minSR]) h.min_le
    refine ⟨h.min_le.trans ?_, (le_div_iff₀ hpos).mp (not_lt.mp hcap)⟩
    exact le_mul_of_one_le_right hmin hstep

theorem RateInRange.loweredRate (h : RateInRange m.samplingRate) (hstep : 1 ≤ step) :
    RateInRange (loweredRate step m) := by
  have hpos : 0 < step := lt_of_lt_of_le one_pos hstep
  rw [Estimation.loweredRate]
  by_cases hcap : m.samplingRate < step * minSR
  · rw [if_pos hcap]
    exact ⟨le_rfl, by norm_num [minSR, maxSR]⟩
  · rw [if_neg hcap]
    have hmin : 0 ≤ m.samplingRate := le_trans (by norm_num [minSR]) h.min_le
    refine ⟨(le_div_iff₀ hpos).mpr ?_, (div_le_self hmin hstep).trans h.le_max⟩
    rw [mul_comm]
    exact not_lt.mp hcap

/-- The message of a rate in range is one that the client sends. -/
theorem RateInRange.controlMessage {p : ℚ} (h : RateInRange p) (m : UnMoniteur) :
    5 ≤ (controlMessage p m).p1 ∧ (controlMessage p m).p1 ≤ 9990 ∧
      (controlMessage p m).p2 = 10000 ∧
      Sampling.validateSamplingRate (controlMessage p m).p1 (controlMessage p m).p2 = 0 := by
  have hmin : (5 : ℚ) ≤ p * 10000 := by
    have := h.min_le
    norm_num [minSR] at this
    linarith
  have hmax : p * 10000 ≤ 9990 := by
    have := h.le_max
    norm_num [maxSR] at this
    linarith
  have htrunc : truncate (p * 10000) = ⌊p * 10000⌋ := if_pos (le_trans (by norm_num) hmin)
  have hlow : 5 ≤ truncate (p * 10000) := by
    rw [htrunc]
    exact Int.le_floor.mpr (by exact_mod_cast hmin)
  have hhigh : truncate (p * 10000) ≤ 9990 := by
    rw [htrunc]
    exact Int.cast_le.mp ((Int.floor_le _).trans (by exact_mod_cast hmax))
  refine ⟨hlow, hhigh, rfl, Sampling.validateSamplingRate_eq_zero.mpr ⟨?_, ?_, ?_⟩⟩
  · exact le_trans (by decide) hlow
  · exact le_trans hhigh (show (9990 : ℤ) ≤ 10000 by decide)
  · exact show (1 : ℤ) ≤ 10000 by decide

/-! ## One call -/

/-- The rates of all monitors are in range. -/
def LesMoniteurs.InRange (ms : LesMoniteurs) : Prop := ∀ l, RateInRange (ms l).samplingRate

/-- The loop over the observations leaves the rates alone. -/
theorem samplingRate_foldl_deltaStep (resultat : UInt32 → UInt32 → UInt64)
    (ls : List (Fin nombreMoniteurs)) (s : DeltaState) (l : Fin nombreMoniteurs) :
    ((ls.foldl (deltaStep resultat) s).lesMoniteurs l).samplingRate =
      (s.lesMoniteurs l).samplingRate := by
  induction ls generalizing s with
  | nil => rfl
  | cons l' ls ih =>
    rw [List.foldl_cons, ih, deltaStep]
    split
    · by_cases hl : l = l'
      · subst hl
        simp
      · simp [hl]
    · rfl

/-- A loop that changes rates keeps them in range, and so are the rates it sends. -/
theorem LesMoniteurs.InRange.changeRates {ms : LesMoniteurs} (h : ms.InRange)
    (chosen : Fin nombreMoniteurs → Bool) {rate : UnMoniteur → ℚ}
    (hrate : ∀ m : UnMoniteur, RateInRange m.samplingRate → RateInRange (rate m)) :
    (changeRates chosen rate ms).1.InRange ∧ ∀ c ∈ (changeRates chosen rate ms).2,
      ∃ p m, RateInRange p ∧ c = controlMessage p m := by
  refine ⟨fun l => ?_, fun c hc => ?_⟩
  · rw [Estimation.changeRates]
    simp only
    split
    · exact hrate _ (h l)
    · exact h l
  · obtain ⟨l, -, rfl⟩ := List.mem_map.mp hc
    exact ⟨rate (ms l), ms l, hrate _ (h l), rfl⟩

theorem LesMoniteurs.InRange.reconfigurer {ms : LesMoniteurs} (h : ms.InRange) (threshold : ℤ)
    (sizeval : UInt64) (resultat : UInt32 → UInt32 → UInt64) (stack : Fin nombreMoniteurs → ℚ)
    (loverhead lcompteur : ℤ) :
    (reconfigurer threshold sizeval resultat stack loverhead lcompteur ms).1.InRange ∧
      ∀ c ∈ (reconfigurer threshold sizeval resultat stack loverhead lcompteur ms).2,
        ∃ p m, RateInRange p ∧ c = controlMessage p m := by
  have hstep := one_le_stepp threshold sizeval lcompteur
  rw [Estimation.reconfigurer]
  simp only
  by_cases hnone : loverhead = 0
  · rw [if_pos hnone]
    exact h.changeRates _ fun m hm => hm.raisedRate hstep
  · rw [if_neg hnone]
    by_cases hover : loverhead = 1
    · rw [if_pos hover]
      refine LesMoniteurs.InRange.changeRates (fun l => ?_) _ fun m hm => hm.loweredRate hstep
      rw [samplingRate_foldl_deltaStep]
      exact h l
    · rw [if_neg hover]
      exact ⟨h, fun c hc => absurd hc List.not_mem_nil⟩

/-! ## Every sequence of calls -/

/-- The monitors, and the messages that have been sent, after calls of `reconfigurer`. Between two
calls the observations change in any way. -/
inductive RateRuns (threshold : ℤ) : LesMoniteurs → List Sampling.RateChange → Prop
  | start {ms : LesMoniteurs} (hpos : 0 < threshold) (h : ms.InRange) : RateRuns threshold ms []
  | observe {ms : LesMoniteurs} {sent : List Sampling.RateChange} (h : RateRuns threshold ms sent)
    (observations : Fin nombreMoniteurs → List MonitorObservation) :
    RateRuns threshold (fun l => { ms l with lesObservations := observations l }) sent
  | reconfigurer {ms : LesMoniteurs} {sent : List Sampling.RateChange}
    (h : RateRuns threshold ms sent) (loverhead lcompteur : ℤ) (sizeval : UInt64)
    (resultat : UInt32 → UInt32 → UInt64)
    (stack : Fin nombreMoniteurs → ℚ) (hover : loverhead = 0 ∨ loverhead = 1)
    (hcompteur : 1 ≤ lcompteur) :
    RateRuns threshold
      (Estimation.reconfigurer threshold sizeval resultat stack loverhead lcompteur ms).1
      (sent ++ (Estimation.reconfigurer threshold sizeval resultat stack loverhead lcompteur ms).2)

theorem RateRuns.inRange {threshold : ℤ} {ms : LesMoniteurs} {sent : List Sampling.RateChange}
    (h : RateRuns threshold ms sent) :
    ms.InRange ∧ ∀ c ∈ sent, ∃ p m, RateInRange p ∧ c = controlMessage p m := by
  induction h with
  | start _ h => exact ⟨h, fun c hc => absurd hc List.not_mem_nil⟩
  | observe _ _ ih => exact ⟨fun l => ih.1 l, ih.2⟩
  | reconfigurer _ loverhead lcompteur sizeval resultat stack _ _ ih =>
    obtain ⟨hrange, hsent⟩ :=
      ih.1.reconfigurer threshold sizeval resultat stack loverhead lcompteur
    refine ⟨hrange, fun c hc => ?_⟩
    rcases List.mem_append.mp hc with hc | hc
    · exact ih.2 c hc
    · exact hsent c hc

/-- A rate that is looked up is the rate of a monitor. -/
theorem LesMoniteurs.InRange.samlingRate {ms : LesMoniteurs} (h : ms.InRange) {s : Text} {p : ℚ}
    (hp : samlingRate ms s = .ok p) : RateInRange p := by
  rw [Estimation.samlingRate] at hp
  cases hfind : ms.find s with
  | none =>
    rw [hfind] at hp
    cases hp
  | some l =>
    rw [hfind] at hp
    exact Except.ok.inj hp ▸ h l

/-- The rates stay in range and the messages are valid, and so `1 - p` is not 0: neither for the
rate of a monitor, in `Add_result` and `reconfigurer`, nor for one that `Add_calcul` looks up and
puts into the list that `Add_result` gets. -/
theorem RateRuns.ratesValid {threshold : ℤ} {ms : LesMoniteurs} {sent : List Sampling.RateChange}
    (h : RateRuns threshold ms sent) :
    (∀ l, 0.0005 ≤ (ms l).samplingRate ∧ (ms l).samplingRate ≤ 0.999) ∧
      (∀ c ∈ sent, 5 ≤ c.p1 ∧ c.p1 ≤ 9990 ∧ c.p2 = 10000 ∧
        Sampling.validateSamplingRate c.p1 c.p2 = 0) ∧
      (∀ l, 1 - (ms l).samplingRate ≠ 0) ∧
      (∀ s p, samlingRate ms s = .ok p → 1 - p ≠ 0) ∧
      ∀ tete flow tete', addCalcul ms tete flow = .ok tete' →
        (∀ cl ∈ tete, 1 - cl.sRate ≠ 0) → ∀ cl ∈ tete', 1 - cl.sRate ≠ 0 := by
  obtain ⟨hrange, hsent⟩ := h.inRange
  refine ⟨fun l => ⟨(hrange l).min_le, (hrange l).le_max⟩, fun c hc => ?_,
    fun l => (hrange l).one_sub_ne_zero, fun s p hp => (hrange.samlingRate hp).one_sub_ne_zero, ?_⟩
  · obtain ⟨p, m, hp, rfl⟩ := hsent c hc
    exact hp.controlMessage m
  · intro tete flow tete' hcalcul htete cl hcl
    obtain ⟨p, hp, hok⟩ := ErrorLoops.bind_eq_ok.mp hcalcul
    obtain rfl := Except.ok.inj hok
    rcases List.mem_append.mp hcl with hcl | hcl
    · exact htete cl hcl
    · rw [List.mem_singleton.mp hcl]
      exact (hrange.samlingRate hp).one_sub_ne_zero

/-- Monitors with the rate `conf_init`. -/
def initialMoniteurs : LesMoniteurs := fun _ => { samplingRate := 0.005, adresse := [49] }

/-- What the first monitor has observed between two calls. -/
def firstObserves (l : Fin nombreMoniteurs) : List MonitorObservation :=
  if l.val = 0 then [{
    agentAddr := [49], srcAddr := [50], dstAddr := [51], srcPort := 1, dstPort := 2, protocol := 6
    srcAs := 1, dstAs := 2, sF := 10, alphaF := 1, rapportNumberF := 1 }]
  else []

/-- After a call without overhead and one with overhead, which has raised all rates and lowered
those of the monitors without observations. -/
theorem initialMoniteurs_ratesValid :
    let raised := reconfigurer 100 600 (fun _ _ => 1) (fun _ => 0) 0 60 initialMoniteurs
    let observed : LesMoniteurs := fun l => { raised.1 l with lesObservations := firstObserves l }
    let lowered := reconfigurer 100 600 (fun _ _ => 1) (fun _ => 0) 1 2 observed
    ((raised.1 ⟨1, by decide⟩).samplingRate = 0.014 ∧
        (lowered.1 ⟨0, by decide⟩).samplingRate = 0.014 ∧
        (lowered.1 ⟨1, by decide⟩).samplingRate < 0.014 ∧ lowered.2.length = 96) ∧
      (∀ l, 0.0005 ≤ (lowered.1 l).samplingRate ∧ (lowered.1 l).samplingRate ≤ 0.999) ∧
      ∀ c ∈ [] ++ raised.2 ++ lowered.2, 5 ≤ c.p1 ∧ c.p1 ≤ 9990 ∧ c.p2 = 10000 ∧
        Sampling.validateSamplingRate c.p1 c.p2 = 0 := by
  have hstart : RateRuns 100 initialMoniteurs [] :=
    .start (by decide) fun _ => ⟨by norm_num [initialMoniteurs, minSR],
      by norm_num [initialMoniteurs, maxSR]⟩
  have hraised := hstart.reconfigurer 0 60 600 (fun _ _ => 1) (fun _ => 0) (.inl rfl) (by decide)
  have hvalid := ((hraised.observe firstObserves).reconfigurer 1 2 600 (fun _ _ => 1) (fun _ => 0)
    (.inr rfl) (by decide)).ratesValid
  exact ⟨by decide +kernel, hvalid.1, hvalid.2.1⟩

end Estimation
