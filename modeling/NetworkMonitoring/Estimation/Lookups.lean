import NetworkMonitoring.Estimation.Grouping

/-!
# Estimation — looking up the monitor of a report

`samling_rate` and `Add_observation` look for the monitor whose address is the agent of a report.
Both walk through `les_moniteurs` until they have found it; the bound of the walk is commented out.

* `inTable_iff`: a walk that finds an entry compares entries of the table only.
* `estimateRound_finds`: whatever the reports are, a round that returns has found the entry of each
  of them, and has used the entries that it has found.
* `roundLookups_iff`: so all walks of a round stay in the table exactly when the agent of each
  report is a monitor.
-/

namespace Estimation

open CText ErrorLoops

/-! ## The loop -/

/-- What a walk through the table comes to: the indices of the entries that it has compared, and the
entry that it has found. -/
structure Lookup where
  compared : List ℕ
  entry : Option (Fin nombreMoniteurs)

/-- The loop of `samling_rate` and of `Add_observation` from index `i` on. Behind the last entry of
the table it compares memory that is not the table's; nothing is said about how it goes on then. -/
def lookupLoop (ms : LesMoniteurs) (s : Text) (i : ℕ) : Lookup :=
  if h : i < nombreMoniteurs then
    if (ms ⟨i, h⟩).adresse = s then { compared := [i], entry := some ⟨i, h⟩ }
    else
      let r := lookupLoop ms s (i + 1)
      { r with compared := i :: r.compared }
  else { compared := [i], entry := none }
termination_by nombreMoniteurs - i

/-- The walk for an address stays in the table and finds the entry `i`, which has that address. -/
structure InTable (ms : LesMoniteurs) (s : Text) (i : Fin nombreMoniteurs) : Prop where
  compared : ∀ k ∈ (lookupLoop ms s 0).compared, k < nombreMoniteurs
  entry : (lookupLoop ms s 0).entry = some i
  adresse : (ms i).adresse = s

section
variable {ms : LesMoniteurs} {s : Text}

/-- The loop finds the first monitor from an index on. -/
theorem entry_lookupLoop (ms : LesMoniteurs) (s : Text) (i : ℕ) :
    (lookupLoop ms s i).entry = (moniteurs.drop i).find? fun k => (ms k).adresse == s := by
  have hlength : moniteurs.length = nombreMoniteurs := List.length_finRange
  fun_induction lookupLoop ms s i with
  | case1 i h heq =>
    have hdrop : moniteurs.drop i = ⟨i, h⟩ :: moniteurs.drop (i + 1) := by
      rw [List.drop_eq_getElem_cons (by rw [hlength]; exact h)]
      simp [moniteurs]
    rw [hdrop, List.find?_cons_of_pos (by simpa using heq)]
  | case2 i h hne r ih =>
    have hdrop : moniteurs.drop i = ⟨i, h⟩ :: moniteurs.drop (i + 1) := by
      rw [List.drop_eq_getElem_cons (by rw [hlength]; exact h)]
      simp [moniteurs]
    rw [hdrop, List.find?_cons_of_neg (by simpa using hne)]
    exact ih
  | case3 i h =>
    rw [List.drop_eq_nil_of_le (by rw [hlength]; omega)]
    rfl

/-- The loop finds the monitor of the address. -/
theorem entry_lookupLoop_zero (ms : LesMoniteurs) (s : Text) :
    (lookupLoop ms s 0).entry = ms.find s :=
  entry_lookupLoop ms s 0

/-- A walk that finds an entry has compared entries of the table only. -/
theorem compared_lt {i : ℕ} (h : (lookupLoop ms s i).entry.isSome = true) :
    ∀ k ∈ (lookupLoop ms s i).compared, k < nombreMoniteurs := by
  fun_induction lookupLoop ms s i with
  | case1 i hi _ =>
    intro k hk
    rwa [List.mem_singleton.mp hk]
  | case2 i hi _ r ih =>
    intro k hk
    obtain rfl | hk := List.mem_cons.mp hk
    · exact hi
    · exact ih h k hk
  | case3 i hi => cases h

/-- An entry is in the table when it is found. -/
theorem inTable_iff {i : Fin nombreMoniteurs} : InTable ms s i ↔ ms.find s = some i := by
  constructor
  · intro h
    rw [← entry_lookupLoop_zero, h.entry]
  · intro h
    have hentry : (lookupLoop ms s 0).entry = some i := by rw [entry_lookupLoop_zero, h]
    exact {
      compared := compared_lt (by rw [hentry]; rfl)
      entry := hentry
      adresse := by simpa using List.find?_some h }

/-- Where no entry has the address, the walk comes to the memory behind the table. -/
theorem compared_of_find_eq_none (h : ms.find s = none) :
    nombreMoniteurs ∈ (lookupLoop ms s 0).compared := by
  have hbehind : ∀ i ≤ nombreMoniteurs, (lookupLoop ms s i).entry = none →
      nombreMoniteurs ∈ (lookupLoop ms s i).compared := by
    intro i hi
    fun_induction lookupLoop ms s i with
    | case1 i _ _ => exact fun h => absurd h (Option.some_ne_none _)
    | case2 i hlt _ r ih => exact fun h => List.mem_cons_of_mem i (ih hlt h)
    | case3 i hge => exact fun _ => List.mem_singleton.mpr (by omega)
  exact hbehind 0 (Nat.zero_le _) (by rw [entry_lookupLoop_zero, h])

/-- An agent is a monitor when an entry has its address. -/
theorem LesMoniteurs.knows_iff_exists {r : Report} :
    ms.Knows r ↔ ∃ i, (ms i).adresse = r.agentAddr := by
  rw [Knows, find, List.find?_isSome]
  simp only [moniteurs, List.mem_finRange, true_and, beq_iff_eq]

/-- A report whose entry is in the table is known. -/
theorem LesMoniteurs.knows_of_inTable {r : Report} {i : Fin nombreMoniteurs}
    (h : InTable ms r.agentAddr i) : ms.Knows r := by
  rw [Knows, inTable_iff.mp h]
  rfl

end

/-! ## What a call uses -/

/-- The rate of the entry that the walk for the agent of the report finds. -/
def CalculList.UsesEntry (ms : LesMoniteurs) (cl : CalculList) : Prop :=
  ∃ i, InTable ms cl.flow.agentAddr i ∧ cl.sRate = (ms i).samplingRate

/-- The monitors have got observations, each at the entry that the walk for its agent finds. -/
structure LesMoniteurs.Observed (ms ms' : LesMoniteurs) : Prop where
  adresses : ms.SameAdresses ms'
  rates : ∀ i, (ms' i).samplingRate = (ms i).samplingRate
  observations : ∀ i, ∃ new, (ms' i).lesObservations = (ms i).lesObservations ++ new ∧
    ∀ o ∈ new, InTable ms o.agentAddr i

section
variable {ms ms' ms'' : LesMoniteurs}

/-- Monitors with the same addresses are found alike. -/
theorem LesMoniteurs.SameAdresses.find_eq (h : ms.SameAdresses ms') (s : Text) :
    ms'.find s = ms.find s := by
  simp only [find, h _]

/-- They know the same reports. -/
theorem LesMoniteurs.SameAdresses.knows_iff (h : ms.SameAdresses ms') {r : Report} :
    ms'.Knows r ↔ ms.Knows r := by
  rw [Knows, Knows, h.find_eq]

/-- They have the same entries. -/
theorem LesMoniteurs.SameAdresses.inTable (h : ms.SameAdresses ms') {s : Text}
    {i : Fin nombreMoniteurs} : InTable ms' s i ↔ InTable ms s i := by
  rw [inTable_iff, inTable_iff, h.find_eq]

/-- Nothing has been observed. -/
theorem LesMoniteurs.Observed.refl (ms : LesMoniteurs) : ms.Observed ms where
  adresses _ := rfl
  rates _ := rfl
  observations _ := ⟨[], (List.append_nil _).symm, fun _ h => absurd h List.not_mem_nil⟩

/-- What is observed in two steps. -/
theorem LesMoniteurs.Observed.trans (h : ms.Observed ms') (h' : ms'.Observed ms'') :
    ms.Observed ms'' where
  adresses := h.adresses.trans h'.adresses
  rates i := (h'.rates i).trans (h.rates i)
  observations i := by
    obtain ⟨new, hnew, hin⟩ := h.observations i
    obtain ⟨new', hnew', hin'⟩ := h'.observations i
    refine ⟨new ++ new', by rw [hnew', hnew, List.append_assoc], fun o ho => ?_⟩
    obtain ho | ho := List.mem_append.mp ho
    · exact hin o ho
    · exact h.adresses.inTable.mp (hin' o ho)

/-- Observations do not move the entries. -/
theorem CalculList.UsesEntry.of_observed (h : ms.Observed ms') {cl : CalculList}
    (hcl : cl.UsesEntry ms') : cl.UsesEntry ms := by
  obtain ⟨i, hi, hrate⟩ := hcl
  exact ⟨i, h.adresses.inTable.mp hi, by rw [hrate, h.rates]⟩

/-- A report with an entry is known. -/
theorem CalculList.UsesEntry.knows {cl : CalculList} (h : cl.UsesEntry ms) : ms.Knows cl.flow := by
  obtain ⟨i, hi, -⟩ := h
  exact LesMoniteurs.knows_of_inTable hi

/-- `samling_rate` in `Add_calcul`. -/
theorem addCalcul_finds (ms : LesMoniteurs) (tete : List CalculList) (flow : Report) :
    Ends (· = .outside)
      (fun calcul => ∃ cl, calcul = tete ++ [cl] ∧ cl.flow = flow ∧ cl.UsesEntry ms)
      (addCalcul ms tete flow) := by
  rw [addCalcul, samlingRate]
  cases hfind : ms.find flow.agentAddr with
  | none => rfl
  | some i => exact ⟨_, rfl, rfl, i, inTable_iff.mpr hfind, rfl⟩

/-- `Add_observation`. -/
theorem addObservation_finds (ms : LesMoniteurs) (flow : Report) (nPackets : UInt64) (alfa : ℚ)
    (rapports : ℤ) :
    Ends (· = .outside) ms.Observed (addObservation ms flow nPackets alfa rapports) := by
  rw [addObservation]
  cases hfind : ms.find flow.agentAddr with
  | none => rfl
  | some indice =>
    refine ⟨fun i => ?_, fun i => ?_, fun i => ?_⟩
    · by_cases heq : i = indice
      · rw [heq, Function.update_self]
      · rw [Function.update_of_ne heq]
    · by_cases heq : i = indice
      · rw [heq, Function.update_self]
      · rw [Function.update_of_ne heq]
    · by_cases heq : i = indice
      · rw [heq, Function.update_self]
        refine ⟨_, rfl, fun o ho => ?_⟩
        rw [List.mem_singleton.mp ho]
        exact inTable_iff.mpr hfind
      · rw [Function.update_of_ne heq]
        exact (LesMoniteurs.Observed.refl ms).observations i

/-- `Add_result` notes an observation for each report of the flow. -/
theorem addResult_finds (path : UInt32 → UInt32 → List Text) (st : Estimator)
    {calcul : List CalculList} (hne : calcul ≠ []) :
    Ends (· = .outside) (fun st' => st.lesMoniteurs.Observed st'.lesMoniteurs)
      (addResult path st calcul) := by
  obtain ⟨cl, rest, rfl⟩ := List.exists_cons_of_ne_nil hne
  rw [addResult]
  simp only
  split_ifs
  · exact .refl _
  · refine Ends.bind (P := st.lesMoniteurs.Observed) ?_ fun ms hms => hms
    refine Ends.foldlM (I := fun _ ms => st.lesMoniteurs.Observed ms) ?_ (.refl _)
    intro pre cl2 post ms _ hms
    exact (addObservation_finds ms cl2.flow _ _ _).imp (fun _ => id) fun ms' hms' => hms.trans hms'

end

/-! ## The loops of a round -/

/-- One of the reports `rs`, which start at position `j`, is at position `k`, and its agent is a
monitor. -/
def KnownAt (ms : LesMoniteurs) (rs : List Report) (j k : ℕ) : Prop :=
  ∃ m r, rs[m]? = some r ∧ k = j + m ∧ ms.Knows r

/-- A report in front moves the positions. -/
theorem KnownAt.cons {ms : LesMoniteurs} {rs : List Report} {j k : ℕ} (h : KnownAt ms rs (j + 1) k)
    (r : Report) : KnownAt ms (r :: rs) j k := by
  obtain ⟨m, q, hq, rfl, hknown⟩ := h
  exact ⟨m + 1, q, by rwa [List.getElem?_cons_succ], by omega, hknown⟩

/-- A report that is added has an entry. -/
theorem addSameFlow_finds (ms : LesMoniteurs) (pCourant pCourant2 : Report)
    (calcul : List CalculList) :
    Ends (· = .outside)
      (fun calcul' => (∀ cl ∈ calcul', cl ∈ calcul ∨ cl.UsesEntry ms) ∧
        (pCourant2.sameFlow pCourant = true → ms.Knows pCourant2))
      (addSameFlow ms pCourant calcul pCourant2) := by
  rw [addSameFlow]
  by_cases hsame : pCourant2.sameFlow pCourant = true
  · rw [if_pos hsame]
    refine (addCalcul_finds ms calcul pCourant2).imp (fun _ => id) ?_
    rintro _ ⟨cl, rfl, hflow, huses⟩
    refine ⟨fun cl' hcl' => ?_, fun _ => hflow ▸ huses.knows⟩
    obtain hcl' | hcl' := List.mem_append.mp hcl'
    · exact .inl hcl'
    · exact .inr (List.mem_singleton.mp hcl' ▸ huses)
  · rw [if_neg hsame]
    exact ⟨fun _ => .inl, fun h => absurd h hsame⟩

/-- The inner loop, whatever the reports are: what it marks it has looked up. -/
theorem collectFlow_finds (ms : LesMoniteurs) {picFlowEnd : ℕ} (pCourant : Report)
    (later : List Report) {rs : List Report} (hne : rs ≠ []) {j : ℕ}
    (hj : j + rs.length = picFlowEnd + 1) (used : ℕ → Bool) (calcul : List CalculList) :
    Ends (· = .outside)
      (fun r => (∀ cl ∈ r.2, cl ∈ calcul ∨ cl.UsesEntry ms) ∧
        ∀ k, r.1 k = true → used k = true ∨ KnownAt ms rs j k)
      (collectFlow ms picFlowEnd pCourant j (rs ++ later) used calcul) := by
  induction rs generalizing j used calcul with
  | nil => exact absurd rfl hne
  | cons q rs ih =>
    rw [List.length_cons] at hj
    rw [List.cons_append, collectFlow]
    apply (addSameFlow_finds ms pCourant q calcul).bind
    rintro calcul' ⟨hcalcul, hknown⟩
    -- the mark that is set here
    have hmark : ∀ k, (if q.sameFlow pCourant = true then Function.update used j true else used) k
        = true → used k = true ∨ KnownAt ms (q :: rs) j k := by
      intro k hk
      obtain hk | ⟨rfl, hkey⟩ := update_mark.mp hk
      · exact .inl hk
      · have hsame : q.sameFlow pCourant = true := by
          rw [Report.sameFlow_eq]
          exact decide_eq_true hkey
        exact .inr ⟨0, q, List.getElem?_cons_zero, rfl, hknown hsame⟩
    cases rs with
    | nil =>
      have hend : j = picFlowEnd := by simpa using hj
      rw [if_neg fun h => h.1 hend]
      exact ⟨hcalcul, hmark⟩
    | cons q' rs =>
      have hend : j ≠ picFlowEnd := by
        rw [List.length_cons] at hj
        omega
      rw [if_pos ⟨hend, List.cons_ne_nil _ _⟩]
      refine (ih (List.cons_ne_nil _ _) (by omega) _ calcul').imp (fun _ => id) fun r hr => ⟨?_, ?_⟩
      · exact fun cl hcl => (hr.1 cl hcl).elim (hcalcul cl) .inr
      · exact fun k hk => (hr.2 k hk).elim (hmark k) fun h => .inr (h.cons q)

/-- What the calls of a walk have used are the entries of the table. -/
structure Walk.Sound (ms : LesMoniteurs) (w : Walk) : Prop where
  observed : ms.Observed w.st.lesMoniteurs
  calls : ∀ calcul ∈ w.calls, ∀ cl ∈ calcul, cl.UsesEntry ms

/-- The walk has come to the reports `rest`; it has looked up those before them, and those of them
that it has marked. -/
structure Walk.Seen (ms : LesMoniteurs) (pre rest : List Report) (w : Walk) : Prop
    extends w.Sound ms where
  passed : ∀ r ∈ pre, ms.Knows r
  marked : ∀ k, w.used k = true → pre.length ≤ k → KnownAt ms rest pre.length k

section
variable (path : UInt32 → UInt32 → List Text) {ms : LesMoniteurs} {w : Walk} {picFlowEnd : ℕ}
  {pre post : List Report} {q : Report} (later : List Report)

/-- A report that is not marked. -/
theorem Walk.Sound.estimateFlow (h : w.Sound ms) (hend : pre.length + post.length = picFlowEnd) :
    Ends (· = .outside)
      (fun w' => w'.Sound ms ∧ ms.Knows q ∧
        ∀ k, w'.used k = true → w.used k = true ∨ KnownAt ms post (pre.length + 1) k)
      (w.estimateFlow path picFlowEnd pre.length q (post ++ later)) := by
  have hadresses := h.observed.adresses
  rw [Walk.estimateFlow]
  refine (addCalcul_finds w.st.lesMoniteurs [] q).bind ?_
  rintro _ ⟨cl, rfl, rfl, huses⟩
  have hq : ms.Knows cl.flow := hadresses.knows_iff.mp huses.knows
  by_cases hpost : post = []
  · -- the last report: there is nothing left to collect
    have hlast : pre.length = picFlowEnd := by
      rw [← hend, hpost]
      rfl
    rw [if_neg fun hmore => hmore.2 hlast]
    exact ⟨h, hq, fun _ => .inl⟩
  · have hpos := List.length_pos_of_ne_nil hpost
    rw [if_pos ⟨List.append_ne_nil_of_left_ne_nil hpost later, by omega⟩]
    have hlength : pre.length + 1 + post.length = picFlowEnd + 1 := by omega
    apply (collectFlow_finds w.st.lesMoniteurs cl.flow later hpost hlength w.used _).bind
    rintro ⟨used, calcul⟩ ⟨hcalcul, hused⟩
    -- the lists of the walk are looked up in the table as it was at the start
    have hentries : ∀ cl' ∈ calcul, cl'.UsesEntry ms := by
      intro cl' hcl'
      apply CalculList.UsesEntry.of_observed h.observed
      obtain hcl' | huses' := hcalcul cl' hcl'
      · exact List.mem_singleton.mp hcl' ▸ huses
      · exact huses'
    have hmarks : ∀ k, used k = true → w.used k = true ∨ KnownAt ms post (pre.length + 1) k := by
      intro k hk
      obtain hk | ⟨m, r, hr, hm, hknown⟩ := hused k hk
      · exact .inl hk
      · exact .inr ⟨m, r, hr, hm, hadresses.knows_iff.mp hknown⟩
    simp only
    -- the list is handed on, when there is one
    by_cases hne : calcul = []
    · rw [if_neg fun hne' => hne' hne]
      exact ⟨⟨h.observed, h.calls⟩, hq, hmarks⟩
    · rw [if_pos hne]
      refine (addResult_finds path w.st hne).bind fun st hst => ?_
      refine ⟨⟨h.observed.trans hst, fun calcul' hcalcul' => ?_⟩, hq, hmarks⟩
      obtain hcalcul' | hcalcul' := List.mem_append.mp hcalcul'
      · exact h.calls calcul' hcalcul'
      · exact List.mem_singleton.mp hcalcul' ▸ hentries

/-- The body of the loop. -/
theorem Walk.Seen.visit (h : w.Seen ms pre (q :: post))
    (hend : pre.length + post.length = picFlowEnd) :
    Ends (· = .outside) (Walk.Seen ms (pre ++ [q]) post)
      (w.visit path picFlowEnd pre.length q (post ++ later)) := by
  have hlength : (pre ++ [q]).length = pre.length + 1 := List.length_append
  -- a mark at a place behind this one
  have hbehind : ∀ k, KnownAt ms (q :: post) pre.length k → pre.length + 1 ≤ k →
      KnownAt ms post (pre.length + 1) k := by
    rintro k ⟨m, r, hr, rfl, hknown⟩ hk
    obtain ⟨m, rfl⟩ := Nat.exists_eq_succ_of_ne_zero (show m ≠ 0 by omega)
    exact ⟨m, r, by rwa [List.getElem?_cons_succ] at hr, by omega, hknown⟩
  have hstep : ∀ w' : Walk, w'.Sound ms → ms.Knows q →
      (∀ k, w'.used k = true → w.used k = true ∨ KnownAt ms post (pre.length + 1) k) →
      Walk.Seen ms (pre ++ [q]) post
        { w' with used := Function.update w'.used pre.length true, ab := w'.ab + 1 } := by
    intro w' hsound hq hmarks
    refine ⟨⟨hsound.observed, hsound.calls⟩, fun r hr => ?_, fun k hk hle => ?_⟩
    · obtain hr | hr := List.mem_append.mp hr
      · exact h.passed r hr
      · exact List.mem_singleton.mp hr ▸ hq
    · rw [hlength] at hle ⊢
      have hk' : w'.used k = true :=
        (Function.update_of_ne (show k ≠ pre.length by omega) true w'.used).symm.trans hk
      obtain hk' | hk' := hmarks k hk'
      · exact hbehind k (h.marked k hk' (by omega)) hle
      · exact hk'
  rw [Walk.visit]
  by_cases hused : w.used pre.length = true
  · -- the report has been looked up when it was marked
    obtain ⟨m, r, hr, hm, hknown⟩ := h.marked _ hused le_rfl
    obtain rfl : m = 0 := by omega
    obtain rfl : q = r := Option.some.inj hr
    rw [if_pos hused, ok_bind]
    exact hstep w h.toSound hknown fun _ => .inl
  · rw [if_neg hused]
    exact (h.toSound.estimateFlow path later hend).bind fun w' hw' =>
      hstep w' hw'.1 hw'.2.1 hw'.2.2

/-- The walk looks up every report up to `PicFlow_End`. -/
theorem walkList_finds {rest : List Report} (hne : rest ≠ []) (h : w.Seen ms pre rest)
    (hend : pre.length + rest.length = picFlowEnd + 1) :
    Ends (· = .outside) (fun w' => w'.Sound ms ∧ ∀ r ∈ pre ++ rest, ms.Knows r)
      (walkList path picFlowEnd pre.length (rest ++ later) w) := by
  -- on the reports that are still to come; `Seen` knows of each mark who has set it
  induction rest generalizing pre w with
  | nil => exact absurd rfl hne
  | cons q post ih =>
    rw [List.length_cons] at hend
    rw [List.cons_append, walkList]
    refine (h.visit path later (by omega)).bind fun w' hw' => ?_
    by_cases hpost : post = []
    · -- the report at `PicFlow_End`, where the walk stops
      subst hpost
      rw [if_neg fun hne => hne (by simpa using hend)]
      exact ⟨hw'.toSound, hw'.passed⟩
    · have hpos := List.length_pos_of_ne_nil hpost
      have hlength : (pre ++ [q]).length = pre.length + 1 := List.length_append
      rw [if_pos (by omega), List.append_cons, ← hlength]
      exact ih hpost hw' (by omega)

end

/-- The walk over a list, and a round, whatever the reports are. -/
theorem walkCell_finds (path : UInt32 → UInt32 → List Text) {c : Cell} (snapshot : Snapshot c)
    (st : Estimator) (ab : UInt64) :
    Ends (· = .outside)
      (fun w => w.Sound st.lesMoniteurs ∧ ∀ r ∈ snapshot.reports, st.lesMoniteurs.Knows r)
      (walkCell path snapshot st ab) := by
  have hstart : Walk.Sound st.lesMoniteurs { st := st, ab := ab } :=
    ⟨.refl _, fun _ h => absurd h List.not_mem_nil⟩
  rw [walkCell]
  by_cases hempty : snapshot.reports = []
  · rw [if_pos hempty, hempty]
    exact ⟨hstart, fun _ h => absurd h List.not_mem_nil⟩
  · have hpos := List.length_pos_of_ne_nil hempty
    have hseen : Walk.Seen st.lesMoniteurs [] snapshot.reports { st := st, ab := ab } :=
      ⟨hstart, fun _ h => absurd h List.not_mem_nil, fun _ h => absurd h Bool.false_ne_true⟩
    rw [if_neg hempty]
    refine walkList_finds path snapshot.later hempty hseen ?_
    rw [List.length_nil, Nat.zero_add, Nat.sub_add_cancel hpos]

/-! ## A round -/

/-- What the calls of a round have used are the entries of the table. -/
structure Estimates.Sound (ms : LesMoniteurs) (e : Estimates) : Prop where
  observed : ms.Observed e.st.lesMoniteurs
  calls : ∀ c, ∀ calcul ∈ e.calls c, ∀ cl ∈ calcul, cl.UsesEntry ms

/-- Whatever the reports are, a round that returns has found the entry of each of them. -/
theorem estimateRound_finds (path : UInt32 → UInt32 → List Text) (snapshots : ∀ c, Snapshot c)
    (st : Estimator) :
    Ends (· = .outside)
      (fun e => e.Sound st.lesMoniteurs ∧
        ∀ c, ∀ r ∈ (snapshots c).reports, st.lesMoniteurs.Knows r)
      (estimateRound path snapshots st) := by
  refine (Ends.foldlM (I := fun pre e => e.Sound st.lesMoniteurs ∧
    ∀ c ∈ pre, ∀ r ∈ (snapshots c).reports, st.lesMoniteurs.Knows r) ?_ ?_).imp (fun _ => id)
    fun e he => ⟨he.1, fun c => he.2 c (mem_cellsInOrder c)⟩
  · intro pre c post e _ ⟨hsound, hknown⟩
    refine (walkCell_finds path (snapshots c) e.st e.ab).bind fun w ⟨hw, hreports⟩ => ?_
    have hadresses := hsound.observed.adresses
    refine ⟨⟨hsound.observed.trans hw.observed, fun d => ?_⟩, fun d hd => ?_⟩
    · -- the calls of this cell are new, those of the others are as they were
      by_cases hdc : d = c
      · simp only [hdc, Function.update_self]
        intro calcul hcalcul cl hcl
        exact (hw.calls calcul hcalcul cl hcl).of_observed hsound.observed
      · simp only [Function.update_of_ne hdc]
        exact hsound.calls d
    · obtain hd | hd := List.mem_append.mp hd
      · exact hknown d hd
      · rw [List.mem_singleton.mp hd]
        exact fun r hr => hadresses.knows_iff.mp (hreports r hr)
  · exact ⟨⟨.refl _, fun _ _ h => absurd h List.not_mem_nil⟩, fun _ h => absurd h List.not_mem_nil⟩

/-- The walks of a round stay in the table: the round comes to its end, the rate of each report that
it has combined is that of the entry which the walk for its agent finds, and so is the monitor that
has got the observation of a report. -/
def RoundLookups (path : UInt32 → UInt32 → List Text) (snapshots : ∀ c, Snapshot c)
    (st : Estimator) : Prop :=
  ∃ e, estimateRound path snapshots st = .ok e ∧
    (∀ c, ∀ calcul ∈ e.calls c, ∀ cl ∈ calcul, ∃ i,
      InTable st.lesMoniteurs cl.flow.agentAddr i ∧ cl.sRate = (st.lesMoniteurs i).samplingRate) ∧
    ∀ i, ∃ new, (e.st.lesMoniteurs i).lesObservations = (st.lesMoniteurs i).lesObservations ++ new ∧
      ∀ o ∈ new, InTable st.lesMoniteurs o.agentAddr i

/-- **The walks of a round.** They stay in the table exactly when the agent of each report up to
`PicFlow_End` is a monitor. For an agent that is none there is no error: the walk leaves the
table. -/
theorem roundLookups_iff (path : UInt32 → UInt32 → List Text) (snapshots : ∀ c, Snapshot c)
    (st : Estimator) :
    (RoundLookups path snapshots st ↔
      ∀ c, ∀ r ∈ (snapshots c).reports, ∃ i, (st.lesMoniteurs i).adresse = r.agentAddr) ∧
    ∀ c, ∀ r ∈ (snapshots c).reports, (∀ i, (st.lesMoniteurs i).adresse ≠ r.agentAddr) →
      estimateRound path snapshots st = .error .outside ∧
        nombreMoniteurs ∈ (lookupLoop st.lesMoniteurs r.agentAddr 0).compared := by
  have hends := estimateRound_finds path snapshots st
  refine ⟨⟨?_, fun hknown => ?_⟩, fun c r hr hunknown => ⟨?_, ?_⟩⟩
  · rintro ⟨e, he, -⟩ c r hr
    rw [he] at hends
    exact LesMoniteurs.knows_iff_exists.mp (hends.2 c r hr)
  · obtain ⟨e, he, -⟩ := (estimateRound_ends path snapshots fun c r hr =>
      LesMoniteurs.knows_iff_exists.mpr (hknown c r hr)).exists_ok
    rw [he] at hends
    exact ⟨e, he, hends.1.calls, hends.1.observed.observations⟩
  · obtain ⟨f, hf, rfl⟩ | ⟨e, -, -, hall⟩ := hends.cases
    · exact hf
    · obtain ⟨i, hi⟩ := LesMoniteurs.knows_iff_exists.mp (hall c r hr)
      exact absurd hi (hunknown i)
  · apply compared_of_find_eq_none
    rw [← Option.not_isSome_iff_eq_none]
    intro hknown
    obtain ⟨i, hi⟩ := LesMoniteurs.knows_iff_exists.mp hknown
    exact absurd hi (hunknown i)

/-- A report of an agent that is no monitor. -/
def strayReport : Report := { sampleReport 1 with agentAddr := [57] }

/-- The walk for a report of an agent that is no monitor leaves the table. -/
theorem roundLookups_strayReport :
    ¬ RoundLookups (fun _ _ => [[49]]) (firstPairSnapshots [strayReport] (by decide))
      sampleEstimator := by
  have hrun : (estimateRound (fun _ _ => [[49]])
      (firstPairSnapshots [strayReport] (by decide)) sampleEstimator).isOk = false := by
    decide +kernel
  rintro ⟨e, he, -⟩
  rw [he] at hrun
  cases hrun

end Estimation
