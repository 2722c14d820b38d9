import Mathlib.Algebra.BigOperators.Field
import NetworkMonitoring.Foundations.Groups
import NetworkMonitoring.Estimation.Reconfigurer

/-!
# Estimation — the sensitivities of the monitors

When there is overhead, `reconfigurer` compares the value `les_deltaVar[l]` of each monitor with the
mean of the values. The value is meant to be a sum over the AS pairs that the monitor has observed.

* `deltaLoop_fresh`: the loop over the observations of a monitor leaves the quotient of one AS pair
  in `valsji`, the one that comes up last.
* `lesDeltaVar_eq`: this quotient is added to what the array held before.
* `sumOverPairs_iff`: so the value is the sum when the array has held the rest of it.
-/

namespace Estimation

open Groups

/-! ## The sum over the AS pairs -/

/-- The AS pair of an observation. -/
def MonitorObservation.ases (mo : MonitorObservation) : UInt32 × UInt32 := (mo.srcAs, mo.dstAs)

/-- The part of an observation in the sum of its AS pair. -/
def MonitorObservation.share (mo : MonitorObservation) : ℚ := mo.sF.toNat / mo.alphaF ^ 2

/-- The sum over the observations of an AS pair. -/
def pairSum (obs : List MonitorObservation) (k : UInt32 × UInt32) : ℚ :=
  ((group MonitorObservation.ases obs k).map MonitorObservation.share).sum

/-- The sensitivity of a monitor with the rate `pj` to an AS pair, where the sum over its
observations is divided by `square`. -/
def contribution (pj : ℚ) (obs : List MonitorObservation) (k : UInt32 × UInt32) (square : ℕ) : ℚ :=
  pj / (1 - pj) ^ 2 * (pairSum obs k / square)

section
variable (resultat : UInt32 → UInt32 → UInt64)

/-- The square of the estimated packet number of an AS pair. -/
def squareNumber (k : UInt32 × UInt32) : ℕ := (resultat k.1 k.2).toNat ^ 2

/-- This square in 64 bits. -/
def wrappedSquare (k : UInt32 × UInt32) : ℕ := (resultat k.1 k.2 * resultat k.1 k.2).toNat

/-- The AS pairs that a monitor has observed. -/
def UnMoniteur.pairs (m : UnMoniteur) : Finset (UInt32 × UInt32) :=
  (m.lesObservations.map MonitorObservation.ases).toFinset

/-- The sum over the AS pairs of a monitor. -/
def sensitivity (m : UnMoniteur) : ℚ :=
  ∑ k ∈ m.pairs, contribution m.samplingRate m.lesObservations k (squareNumber resultat k)

/-! ## The loops -/

/-- `les_deltaVar` when it is compared with its mean; `stack` is what it holds before it is
assigned. -/
def lesDeltaVar (stack : Fin nombreMoniteurs → ℚ) (ms : LesMoniteurs) : Fin nombreMoniteurs → ℚ :=
  (moniteurs.foldl (deltaStep resultat) { lesDeltaVar := stack, lesMoniteurs := ms }).lesDeltaVar

end

section
variable {mo : MonitorObservation} {obs : List MonitorObservation} {k : UInt32 × UInt32}

/-- Observations are compared by their AS pairs. -/
theorem MonitorObservation.sameAses_iff {mo2 : MonitorObservation} :
    mo.sameAses mo2 = true ↔ mo2.ases = mo.ases := by
  simp only [sameAses, ases, Bool.and_eq_true, beq_iff_eq, Prod.mk.injEq]

/-- The mark that the inner loop for `mo` sets. -/
def MonitorObservation.mark (mo mo2 : MonitorObservation) : MonitorObservation :=
  if mo.sameAses mo2 = true then { mo2 with used := true } else mo2

/-- A mark keeps the AS pair. -/
theorem MonitorObservation.ases_mark (mo mo2 : MonitorObservation) :
    (mo.mark mo2).ases = mo2.ases := by
  rw [mark]
  split <;> rfl

/-- A mark keeps the share. -/
theorem MonitorObservation.share_mark (mo mo2 : MonitorObservation) :
    (mo.mark mo2).share = mo2.share := by
  rw [mark]
  split <;> rfl

/-- The observations of the AS pair are marked. -/
theorem MonitorObservation.used_mark (mo mo2 : MonitorObservation) :
    (mo.mark mo2).used = (mo2.used || decide (mo2.ases = mo.ases)) := by
  rw [mark]
  by_cases h : mo.sameAses mo2 = true
  · rw [if_pos h, decide_eq_true (sameAses_iff.mp h), Bool.or_true]
  · rw [if_neg h, decide_eq_false fun heq => h (sameAses_iff.mpr heq), Bool.or_false]

/-- An observation of the pair is added. -/
theorem pairSum_cons_self : pairSum (mo :: obs) mo.ases = mo.share + pairSum obs mo.ases := by
  rw [pairSum, group_cons_self, List.map_cons, List.sum_cons, pairSum]

/-- Another observation is not. -/
theorem pairSum_cons_of_ne (h : mo.ases ≠ k) : pairSum (mo :: obs) k = pairSum obs k := by
  rw [pairSum, group_cons_of_ne h, pairSum]

/-- The marks have no part in the sums. -/
theorem pairSum_map_mark (mo : MonitorObservation) (obs : List MonitorObservation)
    (k : UInt32 × UInt32) : pairSum (obs.map mo.mark) k = pairSum obs k := by
  have hkey : ((fun a => decide (MonitorObservation.ases a = k)) ∘ mo.mark)
      = fun a => decide (MonitorObservation.ases a = k) := by
    funext a
    rw [Function.comp_apply, MonitorObservation.ases_mark]
  have hshare : MonitorObservation.share ∘ mo.mark = MonitorObservation.share :=
    funext fun a => MonitorObservation.share_mark mo a
  rw [pairSum, group, List.filter_map, hkey, List.map_map, hshare, pairSum, group]

/-- The inner loop. -/
theorem sumObservations_eq (mo : MonitorObservation) (obs : List MonitorObservation) (somm : ℚ) :
    sumObservations mo obs somm = (obs.map mo.mark, somm + pairSum obs mo.ases) := by
  induction obs generalizing somm with
  | nil => simp [sumObservations, pairSum, group]
  | cons mo2 rest ih =>
    rw [sumObservations]
    by_cases h : mo.sameAses mo2 = true
    · have hases := MonitorObservation.sameAses_iff.mp h
      rw [if_pos h, ih, List.map_cons, MonitorObservation.mark, if_pos h, ← hases, pairSum_cons_self,
        MonitorObservation.share, sq, add_assoc]
    · have hases : mo2.ases ≠ mo.ases := fun heq => h (MonitorObservation.sameAses_iff.mpr heq)
      rw [if_neg h, ih, List.map_cons, MonitorObservation.mark, if_neg h, pairSum_cons_of_ne hases]

/-- The observations that are not marked. -/
def unmarked (obs : List MonitorObservation) : List MonitorObservation := obs.filter (!·.used)

/-- The AS pair that comes up last among some observations. -/
def lastPair (obs : List MonitorObservation) : Option (UInt32 × UInt32) :=
  (firsts MonitorObservation.ases obs).getLast?

/-- An AS pair is marked as a whole. -/
def MarkedByPair (obs : List MonitorObservation) : Prop :=
  ∀ mo ∈ obs, ∀ mo2 ∈ obs, mo.ases = mo2.ases → mo.used = mo2.used

/-- What is not marked yet is of the other pairs. -/
theorem unmarked_map_mark (mo : MonitorObservation) (obs : List MonitorObservation) :
    unmarked (obs.map mo.mark) = (unmarked obs).filter fun mo2 => mo2.ases ≠ mo.ases := by
  induction obs with
  | nil => rfl
  | cons mo2 rest ih =>
    rw [List.map_cons, unmarked, unmarked, List.filter_cons, List.filter_cons,
      MonitorObservation.used_mark, ← unmarked, ← unmarked, ih]
    by_cases hused : mo2.used = true
    · simp [hused]
    · by_cases hases : mo2.ases = mo.ases
      · simp [hused, hases]
      · have hmark : mo.mark mo2 = mo2 :=
          if_neg fun h => hases (MonitorObservation.sameAses_iff.mp h)
        simp [hused, hases, hmark]

/-- Pairs are marked as a whole. -/
theorem MarkedByPair.map_mark {mo : MonitorObservation} {obs : List MonitorObservation}
    (h : MarkedByPair obs) : MarkedByPair (obs.map mo.mark) := by
  intro a' ha' b' hb' hab
  obtain ⟨a, ha, rfl⟩ := List.mem_map.mp ha'
  obtain ⟨b, hb, rfl⟩ := List.mem_map.mp hb'
  rw [MonitorObservation.ases_mark, MonitorObservation.ases_mark] at hab
  rw [MonitorObservation.used_mark, MonitorObservation.used_mark, h a ha b hb hab, hab]

/-- So they are without the first observation. -/
theorem MarkedByPair.tail {mo : MonitorObservation} {obs : List MonitorObservation}
    (h : MarkedByPair (mo :: obs)) : MarkedByPair obs :=
  fun a ha b hb => h a (List.mem_cons_of_mem mo ha) b (List.mem_cons_of_mem mo hb)

/-- The last pair is one of those observed. -/
theorem lastPair_mem (h : lastPair obs = some k) : ∃ mo ∈ obs, mo.ases = k := by
  obtain ⟨mo, hmo, hk⟩ := List.mem_map.mp (mem_firsts.mp (List.mem_of_getLast? h))
  exact ⟨mo, hmo, hk⟩

/-- Without observations there is no last pair. -/
theorem lastPair_eq_none_iff : lastPair obs = none ↔ obs = [] := by
  rw [lastPair, List.getLast?_eq_none_iff]
  cases obs with
  | nil => exact iff_of_true rfl rfl
  | cons mo rest =>
    rw [firsts_cons]
    exact iff_of_false (List.cons_ne_nil _ _) (List.cons_ne_nil _ _)

/-- The pair that comes up last, seen from an observation whose pair comes up first. -/
theorem lastPair_cons (mo : MonitorObservation) (obs : List MonitorObservation) :
    lastPair (mo :: obs) =
      some ((lastPair (obs.filter fun mo2 => mo2.ases ≠ mo.ases)).getD mo.ases) := by
  rw [lastPair, firsts_cons, List.getLast?_cons, lastPair]

/-- What the loop over the observations of a monitor leaves in `valsji`: the quotient of the AS pair
that comes up last among those that are not marked. -/
theorem deltaLoop_eq (resultat : UInt32 → UInt32 → UInt64) (pj : ℚ)
    (obs : List MonitorObservation) (valsji : ℚ) (hmarks : MarkedByPair obs) :
    (deltaLoop resultat pj obs valsji).2 =
      match lastPair (unmarked obs) with
      | none => valsji
      | some k => contribution pj obs k (wrappedSquare resultat k) := by
  -- along the loop; that a pair is marked as a whole carries it over the observations it skips
  fun_induction deltaLoop resultat pj obs valsji with
  | case1 valsji => rfl
  | case2 valsji mo rest hused r ih =>
    have hskip : unmarked (mo :: rest) = unmarked rest :=
      List.filter_cons_of_neg (by simpa using hused)
    rw [hskip]
    refine (ih hmarks.tail).trans ?_
    cases hlast : lastPair (unmarked rest) with
    | none => rfl
    | some k =>
      -- a pair that has no mark is not that of `mo`
      obtain ⟨mo2, hmo2, rfl⟩ := lastPair_mem hlast
      obtain ⟨hmem, hfresh⟩ := List.mem_filter.mp hmo2
      have hne : mo.ases ≠ mo2.ases := by
        intro heq
        rw [← hmarks mo List.mem_cons_self mo2 (List.mem_cons_of_mem mo hmem) heq, hused] at hfresh
        cases hfresh
      simp only [contribution, pairSum_cons_of_ne hne]
  | case3 _ mo rest hused somm marked packetNumber val valsji r ih =>
    have hmarked : marked = (rest.map mo.mark, somm + pairSum rest mo.ases) :=
      sumObservations_eq mo rest somm
    have hkeep : unmarked (mo :: rest) = mo :: unmarked rest :=
      List.filter_cons_of_pos (by simpa using hused)
    rw [hmarked] at ih
    rw [hkeep, lastPair_cons, ← unmarked_map_mark]
    have hr : r.2 = _ := (congrArg (fun l => (deltaLoop resultat pj l valsji).2)
      (congrArg Prod.fst hmarked)).trans (ih hmarks.tail.map_mark)
    show r.2 = _
    rw [hr]
    cases hlast : lastPair (unmarked (rest.map mo.mark)) with
    | none =>
      -- the quotient of the pair of `mo` is kept
      have hsum : marked.2 = pairSum (mo :: rest) mo.ases := by
        rw [hmarked, pairSum_cons_self, MonitorObservation.share, sq]
        show 0 + _ + _ = _
        rw [zero_add]
      show val * (marked.2 / _) = contribution pj (mo :: rest) mo.ases (wrappedSquare resultat mo.ases)
      rw [hsum, contribution, sq]
      rfl
    | some k =>
      -- a pair that comes up later overwrites it
      rw [unmarked_map_mark] at hlast
      obtain ⟨mo2, hmo2, rfl⟩ := lastPair_mem hlast
      have hne : mo.ases ≠ mo2.ases := (of_decide_eq_true (List.mem_filter.mp hmo2).2).symm
      simp only [Option.getD_some, contribution, pairSum_map_mark, pairSum_cons_of_ne hne]

/-- The loop over observations none of which is marked. -/
theorem deltaLoop_fresh (resultat : UInt32 → UInt32 → UInt64) (pj : ℚ)
    {obs : List MonitorObservation} (valsji : ℚ) (hfresh : ∀ mo ∈ obs, mo.used = false)
    (hk : lastPair obs = some k) :
    (deltaLoop resultat pj obs valsji).2 = contribution pj obs k (wrappedSquare resultat k) := by
  have hmarks : MarkedByPair obs := fun a ha b hb _ => by rw [hfresh a ha, hfresh b hb]
  have hall : unmarked obs = obs :=
    List.filter_eq_self.mpr fun mo hmo => by rw [hfresh mo hmo]; rfl
  rw [deltaLoop_eq resultat pj obs valsji hmarks, hall, hk]

/-! ## All monitors -/

/-- The observations are as `Add_observation` has made them. -/
def LesMoniteurs.Fresh (ms : LesMoniteurs) : Prop :=
  ∀ l, ∀ mo ∈ (ms l).lesObservations, mo.used = false

/-- What the loop adds to the value of a monitor. -/
def kept (resultat : UInt32 → UInt32 → UInt64) (m : UnMoniteur) : ℚ :=
  match lastPair m.lesObservations with
  | none => 0
  | some k => contribution m.samplingRate m.lesObservations k (wrappedSquare resultat k)

/-- The iteration for a monitor changes its entries only. -/
theorem deltaStep_eq (resultat : UInt32 → UInt32 → UInt64) {s : DeltaState}
    {l : Fin nombreMoniteurs} (hfresh : ∀ mo ∈ (s.lesMoniteurs l).lesObservations, mo.used = false) :
    (deltaStep resultat s l).lesDeltaVar = Function.update s.lesDeltaVar l
        (if (s.lesMoniteurs l).lesObservations = [] then 0
        else s.lesDeltaVar l + kept resultat (s.lesMoniteurs l)) ∧
      ∀ l', l' ≠ l → (deltaStep resultat s l).lesMoniteurs l' = s.lesMoniteurs l' := by
  rw [deltaStep, kept]
  by_cases hobs : (s.lesMoniteurs l).lesObservations = []
  · rw [if_neg fun h => h hobs, if_pos hobs]
    exact ⟨rfl, fun _ _ => rfl⟩
  · rw [if_pos hobs, if_neg hobs]
    refine ⟨?_, fun l' hl' => Function.update_of_ne hl' _ _⟩
    cases hlast : lastPair (s.lesMoniteurs l).lesObservations with
    | none => exact absurd (lastPair_eq_none_iff.mp hlast) hobs
    | some k =>
      show Function.update s.lesDeltaVar l _ = _
      rw [deltaLoop_fresh resultat _ _ hfresh hlast]

/-- **The values.** A monitor without observations has the value 0; to that of any other one, what
the array held before is added. -/
theorem lesDeltaVar_eq (resultat : UInt32 → UInt32 → UInt64) (stack : Fin nombreMoniteurs → ℚ)
    {ms : LesMoniteurs} (hfresh : ms.Fresh) (l : Fin nombreMoniteurs) :
    lesDeltaVar resultat stack ms l =
      if (ms l).lesObservations = [] then 0 else stack l + kept resultat (ms l) := by
  -- the monitors that are still to come are as they were
  have hrun : ∀ (ls : List (Fin nombreMoniteurs)) (s : DeltaState), ls.Nodup →
      (∀ l' ∈ ls, s.lesMoniteurs l' = ms l') → ∀ l',
      (ls.foldl (deltaStep resultat) s).lesDeltaVar l' =
        if l' ∈ ls then
          if (ms l').lesObservations = [] then 0 else s.lesDeltaVar l' + kept resultat (ms l')
        else s.lesDeltaVar l' := by
    intro ls
    induction ls with
    | nil =>
      intro s _ _ l'
      rw [if_neg List.not_mem_nil]
      rfl
    | cons l₀ ls ih =>
      intro s hnodup hsame l'
      obtain ⟨hnew, hnodup⟩ := List.nodup_cons.mp hnodup
      have hl₀ : s.lesMoniteurs l₀ = ms l₀ := hsame l₀ List.mem_cons_self
      obtain ⟨hvalues, hrest⟩ := deltaStep_eq resultat (s := s) (l := l₀) (hl₀ ▸ hfresh l₀)
      have hsame' : ∀ l' ∈ ls, (deltaStep resultat s l₀).lesMoniteurs l' = ms l' := by
        intro l' hl'
        rw [hrest l' fun heq => hnew (heq ▸ hl'), hsame l' (List.mem_cons_of_mem l₀ hl')]
      rw [List.foldl_cons, ih _ hnodup hsame' l', hvalues, hl₀]
      by_cases hl' : l' = l₀
      · subst hl'
        rw [if_neg hnew, if_pos List.mem_cons_self, Function.update_self]
      · rw [Function.update_of_ne hl']
        simp only [List.mem_cons, hl', false_or]
  rw [lesDeltaVar, hrun moniteurs _ (List.nodup_finRange _) (fun _ _ => rfl) l]
  exact if_pos (List.mem_finRange l)

/-! ## The sum and the value -/

/-- The part of the sum that the loop leaves out, where `k` is the AS pair that comes up last: the
other pairs, and what is lost of the last one when its packet number is squared in 64 bits. -/
def leftOut (resultat : UInt32 → UInt32 → UInt64) (m : UnMoniteur) (k : UInt32 × UInt32) : ℚ :=
  ∑ k' ∈ m.pairs.erase k,
      contribution m.samplingRate m.lesObservations k' (squareNumber resultat k') +
    (contribution m.samplingRate m.lesObservations k (squareNumber resultat k) -
      contribution m.samplingRate m.lesObservations k (wrappedSquare resultat k))

/-- The value of a monitor is the sum over its AS pairs, and no quotient by 0, which is an infinity
in C, has come into it. -/
def SumOverPairs (resultat : UInt32 → UInt32 → UInt64) (stack : Fin nombreMoniteurs → ℚ)
    (ms : LesMoniteurs) (l : Fin nombreMoniteurs) : Prop :=
  (∀ k, lastPair (ms l).lesObservations = some k → wrappedSquare resultat k ≠ 0) ∧
    lesDeltaVar resultat stack ms l = sensitivity resultat (ms l)

/-- Without observations nothing is summed up. -/
theorem sensitivity_of_nil (resultat : UInt32 → UInt32 → UInt64) {m : UnMoniteur}
    (h : m.lesObservations = []) : sensitivity resultat m = 0 := by
  rw [sensitivity, UnMoniteur.pairs, h]
  rfl

/-- The sum over all pairs is what the loop leaves out and what it adds. -/
theorem sensitivity_eq (resultat : UInt32 → UInt32 → UInt64) {m : UnMoniteur}
    {k : UInt32 × UInt32} (hk : lastPair m.lesObservations = some k) :
    sensitivity resultat m = leftOut resultat m k + kept resultat m := by
  have hkept : kept resultat m =
      contribution m.samplingRate m.lesObservations k (wrappedSquare resultat k) := by
    rw [kept, hk]
  obtain ⟨mo, hmo, hases⟩ := lastPair_mem hk
  have hmem : k ∈ m.pairs := List.mem_toFinset.mpr (List.mem_map.mpr ⟨mo, hmo, hases⟩)
  rw [hkept, sensitivity, ← Finset.sum_erase_add _ _ hmem, leftOut]
  ring

/-- **The value of a monitor** is the sum when the array has held the part that is left out. -/
theorem sumOverPairs_iff_stack (resultat : UInt32 → UInt32 → UInt64)
    (stack : Fin nombreMoniteurs → ℚ) {ms : LesMoniteurs} (hfresh : ms.Fresh)
    (l : Fin nombreMoniteurs) :
    SumOverPairs resultat stack ms l ↔
      ∀ k, lastPair (ms l).lesObservations = some k →
        wrappedSquare resultat k ≠ 0 ∧ stack l = leftOut resultat (ms l) k := by
  rw [SumOverPairs, lesDeltaVar_eq resultat stack hfresh]
  cases hlast : lastPair (ms l).lesObservations with
  | none =>
    have hnil := lastPair_eq_none_iff.mp hlast
    -- the entry of a monitor without observations is assigned 0
    rw [if_pos hnil, sensitivity_of_nil resultat hnil]
    exact iff_of_true ⟨fun k h => absurd h.symm (Option.some_ne_none k), rfl⟩
      fun k h => absurd h.symm (Option.some_ne_none k)
  | some k =>
    have hne : (ms l).lesObservations ≠ [] := by
      intro hnil
      rw [lastPair_eq_none_iff.mpr hnil] at hlast
      exact Option.some_ne_none k hlast.symm
    -- the part of the last pair stands on both sides
    rw [if_neg hne, sensitivity_eq resultat hlast, add_left_inj]
    constructor
    · rintro ⟨hsquare, hstack⟩ k' hk'
      obtain rfl := Option.some.inj hk'
      exact ⟨hsquare k rfl, hstack⟩
    · intro h
      refine ⟨fun k' hk' => ?_, (h k rfl).2⟩
      obtain rfl := Option.some.inj hk'
      exact (h k rfl).1

/-- **The sensitivities.** With observations as `Add_observation` makes them, every value that is
compared with the mean is the sum over the AS pairs of its monitor exactly when, at each monitor
with observations, the array has held the part of the sum that the loop leaves out. So whatever it
has held, they are these sums only when there are no observations. -/
theorem sumOverPairs_iff (resultat : UInt32 → UInt32 → UInt64) (ms : LesMoniteurs)
    (hfresh : ms.Fresh) :
    (∀ stack, (∀ l, SumOverPairs resultat stack ms l) ↔
      ∀ l k, lastPair (ms l).lesObservations = some k →
        wrappedSquare resultat k ≠ 0 ∧ stack l = leftOut resultat (ms l) k) ∧
    ((∀ stack l, SumOverPairs resultat stack ms l) ↔ ∀ l, (ms l).lesObservations = []) := by
  refine ⟨fun stack => ?_, ?_, ?_⟩
  · exact forall_congr' fun l => sumOverPairs_iff_stack resultat stack hfresh l
  · intro h l
    by_contra hobs
    have hlast : lastPair (ms l).lesObservations ≠ none := fun hnone =>
      hobs (lastPair_eq_none_iff.mp hnone)
    obtain ⟨k, hk⟩ := Option.ne_none_iff_exists'.mp hlast
    -- two different contents of the array
    have hstack : ∀ c : ℚ, c = leftOut resultat (ms l) k := fun c =>
      ((sumOverPairs_iff_stack resultat (fun _ => c) hfresh l).mp (h _ l) k hk).2
    exact absurd ((hstack 0).trans (hstack 1).symm) zero_ne_one
  · intro h stack l
    rw [sumOverPairs_iff_stack resultat stack hfresh, lastPair_eq_none_iff.mpr (h l)]
    exact fun k hk => absurd hk.symm (Option.some_ne_none k)

/-- An observation of 100 packets of an AS pair. -/
def sampleObservation (srcAs dstAs : UInt32) : MonitorObservation where
  agentAddr := [49]
  srcAddr := [50]
  dstAddr := [51]
  srcPort := 80
  dstPort := 80
  protocol := 6
  srcAs := srcAs
  dstAs := dstAs
  sF := 100
  alphaF := 1
  rapportNumberF := 1

/-- Monitors of which the first one has observed two AS pairs. -/
def twoPairs : LesMoniteurs := fun l =>
  { samplingRate := 1 / 2, adresse := [49]
    lesObservations :=
      if l = ⟨0, by decide⟩ then [sampleObservation 1 2, sampleObservation 3 4] else [] }

/-- No observation of the sample is marked. -/
theorem twoPairs_fresh : twoPairs.Fresh := by
  intro l mo hmo
  rw [twoPairs] at hmo
  dsimp only at hmo
  split_ifs at hmo with hl
  · simp only [List.mem_cons, List.not_mem_nil, or_false] at hmo
    obtain rfl | rfl := hmo
    · rfl
    · rfl
  · cases hmo

/-- The value of the first monitor is the sum when the array has held the part of the pair (1,
2). -/
theorem sumOverPairs_iff_twoPairs :
    ((∀ stack, (∀ l, SumOverPairs (fun _ _ => 10) stack twoPairs l) ↔
      ∀ l k, lastPair (twoPairs l).lesObservations = some k →
        wrappedSquare (fun _ _ => 10) k ≠ 0 ∧ stack l = leftOut (fun _ _ => 10) (twoPairs l) k) ∧
    ((∀ stack l, SumOverPairs (fun _ _ => 10) stack twoPairs l) ↔
      ∀ l, (twoPairs l).lesObservations = [])) ∧
    leftOut (fun _ _ => 10) (twoPairs ⟨0, by decide⟩) (3, 4) = 2 := by
  refine ⟨sumOverPairs_iff (fun _ _ => 10) twoPairs twoPairs_fresh, ?_⟩
  decide +kernel

/-- With an array of zeros the pair (1, 2) is missing from the value. -/
theorem sumOverPairs_twoPairs :
    ¬ ∀ l, SumOverPairs (fun _ _ => 10) (fun _ => 0) twoPairs l := by
  intro h
  have hlast : lastPair (twoPairs ⟨0, by decide⟩).lesObservations = some (3, 4) := by decide +kernel
  have hstack := ((sumOverPairs_iff_stack (fun _ _ => 10) (fun _ => 0) twoPairs_fresh _).mp
    (h ⟨0, by decide⟩) (3, 4) hlast).2
  have hmissing : leftOut (fun _ _ => 10) (twoPairs ⟨0, by decide⟩) (3, 4) = 2 := by decide +kernel
  rw [hmissing] at hstack
  exact absurd hstack (by norm_num)

end

end Estimation
