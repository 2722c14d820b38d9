import Mathlib.Algebra.BigOperators.Ring.Finset
import NetworkMonitoring.Foundations.ErrorLoops
import NetworkMonitoring.Foundations.Groups
import NetworkMonitoring.Estimation.Monitors

/-!
# Estimation — the reports of a round are grouped by their flow

The loops of `Estimation` that walk over the report lists of a round. For a report that is not
`used`, the inner loop collects the reports of the same flow in a list of `Add_calcul` and marks
them, and `Add_result` combines the list. A node is its position in its list here, so `pCourant` and
`PicFlow_End` are positions.

## Main result

* `estimateRound_oncePerFlow_iff`: every flow of a list is combined once, from all its reports,
  exactly when the flow of the last report has been reported before in that list. A new flow in the
  last place is lost: its list of `Add_calcul` never gets to `Add_result`.
-/

namespace Estimation

open CText ErrorLoops Groups

/-- The addresses, ports and the protocol of a flow. -/
abbrev FlowKey := Text × Text × UInt16 × UInt16 × UInt8

def Report.key (r : Report) : FlowKey :=
  (r.srcAddr, r.dstAddr, r.srcPort, r.dstPort, r.protocol)

/-- The comparison of the inner loop. -/
def Report.sameFlow (r pCourant : Report) : Bool :=
  r.srcAddr == pCourant.srcAddr && r.dstAddr == pCourant.dstAddr &&
    r.srcPort == pCourant.srcPort && r.dstPort == pCourant.dstPort &&
    r.protocol == pCourant.protocol

/-- Reports are of one flow when their keys are equal. -/
theorem Report.sameFlow_eq (r pCourant : Report) :
    r.sameFlow pCourant = decide (r.key = pCourant.key) := by
  rw [Bool.eq_iff_iff, decide_eq_true_iff]
  simp only [Report.sameFlow, Report.key, Bool.and_eq_true, beq_iff_eq, Prod.mk.injEq, and_assoc]

/-! ## The loops -/

/-- An AS pair by its place in `chemin`. -/
abbrev Cell := Fin nombreAs × Fin nombreAs

/-- The AS numbers of a place. -/
def Cell.srcAs (c : Cell) : UInt32 := UInt32.ofNat (c.1 + 1)
def Cell.dstAs (c : Cell) : UInt32 := UInt32.ofNat (c.2 + 1)

/-- The list of an AS pair in a round: the reports up to `PicFlow_End`, and those that have been
appended since it was set. `Add_flow` has put them there by their AS numbers. -/
structure Snapshot (c : Cell) where
  reports : List Report
  later : List Report := []
  srcAs : ∀ r ∈ reports, r.srcAs = c.srcAs
  dstAs : ∀ r ∈ reports, r.dstAs = c.dstAs

/-- A report of the flow of `pCourant` is added to its list. -/
def addSameFlow (ms : LesMoniteurs) (pCourant : Report) (calcul : List CalculList)
    (pCourant2 : Report) : Except Fault (List CalculList) :=
  if pCourant2.sameFlow pCourant = true then addCalcul ms calcul pCourant2 else .ok calcul

/-- The inner loop from the node at `j`: the marks, and the list of the flow of `pCourant`. -/
def collectFlow (ms : LesMoniteurs) (picFlowEnd : ℕ) (pCourant : Report) :
    ℕ → List Report → (ℕ → Bool) → List CalculList → Except Fault ((ℕ → Bool) × List CalculList)
  | _, [], _, _ => .error .pointer
  | j, pCourant2 :: next, used, calcul => do
    let used' :=
      if pCourant2.sameFlow pCourant = true then Function.update used j true else used
    let calcul' ← addSameFlow ms pCourant calcul pCourant2
    if j ≠ picFlowEnd ∧ next ≠ [] then
      collectFlow ms picFlowEnd pCourant (j + 1) next used' calcul'
    else
      return (used', calcul')

/-- The walk over a list: `used` are the marks of its nodes, and `calls` the lists that `Add_result`
has been called with. -/
structure Walk where
  st : Estimator
  ab : UInt64
  used : ℕ → Bool := fun _ => false
  calls : List (List CalculList) := []

/-- What the walk does with a report that is not marked. -/
def Walk.estimateFlow (path : UInt32 → UInt32 → List Text) (picFlowEnd i : ℕ) (pCourant : Report)
    (next : List Report) (w : Walk) : Except Fault Walk := do
  let calcul ← addCalcul w.st.lesMoniteurs [] pCourant
  if next ≠ [] ∧ i ≠ picFlowEnd then
    let (used, calcul) ←
      collectFlow w.st.lesMoniteurs picFlowEnd pCourant (i + 1) next w.used calcul
    if calcul ≠ [] then
      let st ← addResult path w.st calcul
      return { w with st := st, used := used, calls := w.calls ++ [calcul] }
    else
      return { w with used := used }
  else
    return w

/-- The body of the outer loop. -/
def Walk.visit (path : UInt32 → UInt32 → List Text) (picFlowEnd i : ℕ) (pCourant : Report)
    (next : List Report) (w : Walk) : Except Fault Walk := do
  let w ← if w.used i = true then .ok w else w.estimateFlow path picFlowEnd i pCourant next
  return { w with used := Function.update w.used i true, ab := w.ab + 1 }

/-- The outer loop from the node at `i`. -/
def walkList (path : UInt32 → UInt32 → List Text) (picFlowEnd : ℕ) :
    ℕ → List Report → Walk → Except Fault Walk
  | _, [], _ => .error .pointer
  | i, pCourant :: next, w => do
    let w ← w.visit path picFlowEnd i pCourant next
    if i ≠ picFlowEnd then walkList path picFlowEnd (i + 1) next w else return w

/-- The walk over the list of an AS pair, which is skipped when `PicFlow_End` is NULL. No node is
marked at first: `Add_flow` sets `used` to 0, and a round frees the nodes that it has marked. -/
def walkCell (path : UInt32 → UInt32 → List Text) {c : Cell} (snapshot : Snapshot c)
    (st : Estimator) (ab : UInt64) : Except Fault Walk :=
  if snapshot.reports = [] then .ok { st := st, ab := ab }
  else walkList path (snapshot.reports.length - 1) 0 (snapshot.reports ++ snapshot.later)
    { st := st, ab := ab }

/-- The estimates of a round, with the calls of `Add_result` for each AS pair. -/
structure Estimates where
  st : Estimator
  ab : UInt64 := 0
  calls : Cell → List (List CalculList) := fun _ => []

/-- The AS pairs in the order of the loops. -/
def cellsInOrder : List Cell := (List.finRange nombreAs).product (List.finRange nombreAs)

/-- The loops of a round over the lists of all AS pairs. -/
def estimateRound (path : UInt32 → UInt32 → List Text) (snapshots : ∀ c, Snapshot c)
    (st : Estimator) : Except Fault Estimates :=
  cellsInOrder.foldlM (fun e c => do
    let w ← walkCell path (snapshots c) e.st e.ab
    return { st := w.st, ab := w.ab, calls := Function.update e.calls c w.calls }) { st := st }

/-! ## What the calls change -/

/-- The agent of the report is a monitor. -/
def LesMoniteurs.Knows (ms : LesMoniteurs) (r : Report) : Prop :=
  (ms.find r.agentAddr).isSome = true

instance (ms : LesMoniteurs) (r : Report) : Decidable (ms.Knows r) :=
  inferInstanceAs (Decidable (_ = _))

/-- The monitors have kept their addresses. -/
def LesMoniteurs.SameAdresses (ms ms' : LesMoniteurs) : Prop :=
  ∀ i, (ms' i).adresse = (ms i).adresse

/-- Two changes that keep the addresses. -/
theorem LesMoniteurs.SameAdresses.trans {ms ms' ms'' : LesMoniteurs} (h : ms.SameAdresses ms')
    (h' : ms'.SameAdresses ms'') : ms.SameAdresses ms'' := fun i => (h' i).trans (h i)

/-- Monitors with the same addresses know the same reports. -/
theorem LesMoniteurs.SameAdresses.knows {ms ms' : LesMoniteurs} (h : ms.SameAdresses ms')
    {r : Report} (hr : ms.Knows r) : ms'.Knows r := by
  have hfind : ms'.find r.agentAddr = ms.find r.agentAddr := by
    simp only [find, h _]
  rw [Knows, hfind]
  exact hr

/-- A report of a known monitor is appended. -/
theorem addCalcul_ends {ms : LesMoniteurs} {flow : Report} (h : ms.Knows flow)
    (tete : List CalculList) :
    Ends (fun _ => False)
      (fun calcul => calcul.map CalculList.flow = tete.map CalculList.flow ++ [flow])
      (addCalcul ms tete flow) := by
  obtain ⟨i, hi⟩ := Option.isSome_iff_exists.mp h
  have hrate : samlingRate ms flow.agentAddr = .ok (ms i).samplingRate := by
    rw [samlingRate, hi]
  rw [addCalcul, hrate, ok_bind]
  exact List.map_append

/-- An observation at a known monitor keeps the addresses. -/
theorem addObservation_ends {ms : LesMoniteurs} {flow : Report} (h : ms.Knows flow)
    (nPackets : UInt64) (alfa : ℚ) (rapports : ℤ) :
    Ends (fun _ => False) ms.SameAdresses (addObservation ms flow nPackets alfa rapports) := by
  obtain ⟨indice, hi⟩ := Option.isSome_iff_exists.mp h
  rw [addObservation, hi]
  intro i
  by_cases heq : i = indice
  · rw [heq, Function.update_self]
  · rw [Function.update_of_ne heq]

/-- The AS numbers of a place are those of a path, so `Add_result` does not reject them. -/
theorem Cell.inRange (c : Cell) :
    ¬(c.srcAs < 1 ∨ UInt32.ofNat nombreAs < c.srcAs ∨ c.dstAs < 1 ∨
      UInt32.ofNat nombreAs < c.dstAs) := by
  have hnumbers : ∀ i : Fin nombreAs, ¬UInt32.ofNat (i + 1) < 1 ∧
      ¬UInt32.ofNat nombreAs < UInt32.ofNat (i + 1) := by decide
  rintro (h | h | h | h)
  · exact (hnumbers c.1).1 h
  · exact (hnumbers c.1).2 h
  · exact (hnumbers c.2).1 h
  · exact (hnumbers c.2).2 h

/-- Another cell is another AS pair. -/
theorem Cell.ases_ne {c d : Cell} (h : d ≠ c) : ¬(d.srcAs = c.srcAs ∧ d.dstAs = c.dstAs) := by
  have hinj : ∀ i j : Fin nombreAs, UInt32.ofNat (i + 1) = UInt32.ofNat (j + 1) → i = j := by
    decide
  exact fun heq => h (Prod.ext (hinj _ _ heq.1) (hinj _ _ heq.2))

/-- The results `rs` have been appended to those of one AS pair. -/
structure Estimator.Appended (c : Cell) (rs : List ResultList) (st st' : Estimator) : Prop where
  here : st'.result c.srcAs c.dstAs = st.result c.srcAs c.dstAs ++ rs
  elsewhere : ∀ d : Cell, d ≠ c → st'.result d.srcAs d.dstAs = st.result d.srcAs d.dstAs

/-- Nothing has been appended. -/
theorem Estimator.Appended.refl (c : Cell) (st : Estimator) : st.Appended c [] st where
  here := (List.append_nil _).symm
  elsewhere _ _ := rfl

/-- What two steps have appended. -/
theorem Estimator.Appended.trans {c : Cell} {rs rs' : List ResultList} {st st' st'' : Estimator}
    (h : st.Appended c rs st') (h' : st'.Appended c rs' st'') : st.Appended c (rs ++ rs') st'' where
  here := by rw [h'.here, h.here, List.append_assoc]
  elsewhere d hd := (h'.elsewhere d hd).trans (h.elsewhere d hd)

/-- `Add_result` on the reports of one AS pair appends a result, which counts them. -/
theorem addResult_ends (path : UInt32 → UInt32 → List Text) {st : Estimator} {c : Cell}
    {calcul : List CalculList} (hne : calcul ≠ [])
    (hknown : ∀ cl ∈ calcul, st.lesMoniteurs.Knows cl.flow)
    (hases : ∀ cl ∈ calcul, cl.flow.srcAs = c.srcAs ∧ cl.flow.dstAs = c.dstAs) :
    Ends (fun _ => False)
      (fun st' => st.lesMoniteurs.SameAdresses st'.lesMoniteurs ∧
        ∃ r : ResultList, r.rapportNumber = calcul.length ∧ st.Appended c [r] st')
      (addResult path st calcul) := by
  obtain ⟨cl, rest, rfl⟩ := List.exists_cons_of_ne_nil hne
  obtain ⟨hsrc, hdst⟩ := hases cl List.mem_cons_self
  rw [addResult]
  simp only [hsrc, hdst]
  rw [if_neg c.inRange]
  refine Ends.bind (P := st.lesMoniteurs.SameAdresses) ?_ fun ms hms => ?_
  · refine Ends.foldlM (I := fun _ ms => st.lesMoniteurs.SameAdresses ms) ?_ fun _ => rfl
    intro pre cl2 post ms heq hms
    have hcl2 : cl2 ∈ cl :: rest := mem_of_eq_append heq
    exact (addObservation_ends (hms.knows (hknown cl2 hcl2)) _ _ _).imp (fun _ => id)
      fun ms' hms' => hms.trans hms'
  · refine ⟨hms, ?pNouveau, ?_, ?here, fun d hd => ?_⟩
    case here =>
      simp only [Function.update_self]
      rfl
    · rfl
    · show Function.update st.result c.srcAs _ d.srcAs d.dstAs = _
      -- the results of the other pairs stay as they are
      by_cases hdsrc : d.srcAs = c.srcAs
      · have hddst : d.dstAs ≠ c.dstAs := fun heq => Cell.ases_ne hd ⟨hdsrc, heq⟩
        rw [hdsrc, Function.update_self, Function.update_of_ne hddst]
      · rw [Function.update_of_ne hdsrc]

/-! ## The inner loop -/

/-- One of the reports `rs`, which start at position `j`, is at position `k` and has the key. -/
def AtKey (rs : List Report) (j : ℕ) (key : FlowKey) (k : ℕ) : Prop :=
  ∃ m q, rs[m]? = some q ∧ k = j + m ∧ q.key = key

/-- No report is at any position of the empty list. -/
theorem atKey_nil {j k : ℕ} {key : FlowKey} : ¬AtKey [] j key k := by
  rintro ⟨m, q, hq, -⟩
  rw [List.getElem?_nil] at hq
  cases hq

/-- A position is the first one, or one in the rest. -/
theorem atKey_cons {r : Report} {rs : List Report} {j k : ℕ} {key : FlowKey} :
    AtKey (r :: rs) j key k ↔ k = j ∧ r.key = key ∨ AtKey rs (j + 1) key k := by
  refine ⟨?_, ?_⟩
  · rintro ⟨m, q, hq, rfl, hkey⟩
    cases m with
    | zero =>
      rw [List.getElem?_cons_zero, Option.some.injEq] at hq
      exact .inl ⟨rfl, hq ▸ hkey⟩
    | succ m =>
      rw [List.getElem?_cons_succ] at hq
      exact .inr ⟨m, q, hq, by omega, hkey⟩
  · rintro (⟨rfl, hkey⟩ | ⟨m, q, hq, rfl, hkey⟩)
    · exact ⟨0, r, rfl, rfl, hkey⟩
    · exact ⟨m + 1, q, hq, by omega, hkey⟩

/-- The report at a position. -/
theorem atKey_add {r : Report} {rs : List Report} {j m : ℕ} (h : rs[m]? = some r)
    {key : FlowKey} : AtKey rs j key (j + m) ↔ r.key = key := by
  refine ⟨?_, fun hkey => ⟨m, r, h, rfl, hkey⟩⟩
  rintro ⟨m', q, hq, heq, hkey⟩
  obtain rfl := Nat.add_left_cancel heq
  obtain rfl := Option.some.inj (h.symm.trans hq)
  exact hkey

/-- A report is appended when it is of the same flow. -/
theorem addSameFlow_ends {ms : LesMoniteurs} {pCourant pCourant2 : Report}
    (h : ms.Knows pCourant2) (calcul : List CalculList) :
    Ends (fun _ => False)
      (fun calcul' => calcul'.map CalculList.flow =
        calcul.map CalculList.flow ++ group Report.key [pCourant2] pCourant.key)
      (addSameFlow ms pCourant calcul pCourant2) := by
  rw [addSameFlow, Report.sameFlow_eq, group]
  by_cases hkey : pCourant2.key = pCourant.key
  · rw [if_pos (decide_eq_true hkey), List.filter_cons_of_pos (by exact decide_eq_true hkey)]
    exact addCalcul_ends h calcul
  · rw [if_neg fun heq => hkey (of_decide_eq_true heq),
      List.filter_cons_of_neg (by exact fun heq => hkey (of_decide_eq_true heq))]
    exact (List.append_nil _).symm

/-- The mark that the inner loop sets. -/
theorem update_mark {used : ℕ → Bool} {pCourant pCourant2 : Report} {j k : ℕ} :
    (if pCourant2.sameFlow pCourant = true then Function.update used j true else used) k = true ↔
      used k = true ∨ k = j ∧ pCourant2.key = pCourant.key := by
  rw [Report.sameFlow_eq]
  by_cases hkey : pCourant2.key = pCourant.key
  · rw [if_pos (decide_eq_true hkey), Function.update_apply]
    by_cases hk : k = j
    · simp [hk, hkey]
    · simp [hk]
  · rw [if_neg fun heq => hkey (of_decide_eq_true heq)]
    simp [hkey]

/-- The inner loop collects the reports of the flow up to `PicFlow_End`, and marks them. -/
theorem collectFlow_ends {ms : LesMoniteurs} {picFlowEnd : ℕ} (pCourant : Report)
    (later : List Report) {rs : List Report} (hne : rs ≠ []) (hknown : ∀ r ∈ rs, ms.Knows r)
    {j : ℕ} (hj : j + rs.length = picFlowEnd + 1) (used : ℕ → Bool) (calcul : List CalculList) :
    Ends (fun _ => False)
      (fun r => r.2.map CalculList.flow =
          calcul.map CalculList.flow ++ group Report.key rs pCourant.key ∧
        ∀ k, r.1 k = true ↔ used k = true ∨ AtKey rs j pCourant.key k)
      (collectFlow ms picFlowEnd pCourant j (rs ++ later) used calcul) := by
  induction rs generalizing j used calcul with
  | nil => exact absurd rfl hne
  | cons q rs ih =>
    rw [List.length_cons] at hj
    rw [List.cons_append, collectFlow]
    refine (addSameFlow_ends (hknown q List.mem_cons_self) calcul).bind fun calcul' hcalcul => ?_
    have hgroup : group Report.key (q :: rs) pCourant.key =
        group Report.key [q] pCourant.key ++ group Report.key rs pCourant.key :=
      List.filter_append [q] rs
    cases rs with
    | nil =>
      -- the node is `PicFlow_End`
      have hend : j = picFlowEnd := by simpa using hj
      rw [if_neg fun h => h.1 hend]
      refine ⟨hcalcul, fun k => ?_⟩
      rw [update_mark, atKey_cons, or_iff_left atKey_nil]
    | cons q' rs =>
      have hend : j ≠ picFlowEnd := by
        rw [List.length_cons] at hj
        omega
      rw [if_pos ⟨hend, List.cons_ne_nil _ _⟩]
      refine (ih (List.cons_ne_nil _ _) (fun r hr => hknown r (List.mem_cons_of_mem q hr))
        (by omega) _ calcul').imp (fun _ => id) fun r hr => ⟨?_, fun k => ?_⟩
      · rw [hr.1, hcalcul, List.append_assoc, hgroup]
      · rw [hr.2 k, update_mark, or_assoc, ← atKey_cons]

/-! ## The outer loop -/

/-- The flows of the reports `pre` have been combined, each from its reports in `reports`. -/
structure Walk.Combined (c : Cell) (start : Estimator) (reports pre : List Report) (w : Walk) :
    Prop where
  adresses : start.lesMoniteurs.SameAdresses w.st.lesMoniteurs
  calls : w.calls.map (List.map CalculList.flow) =
    (firsts Report.key pre).map (group Report.key reports)
  results : ∃ rs : List ResultList,
    rs.map ResultList.rapportNumber = w.calls.map (fun calcul => (calcul.length : ℤ)) ∧
      start.Appended c rs w.st

/-- The walk has come to the reports `rest`: of these, it has marked those whose flows have been
combined. -/
structure Walk.Visited (c : Cell) (start : Estimator) (pre rest : List Report) (w : Walk) : Prop
    extends w.Combined c start (pre ++ rest) pre where
  marks : ∀ m r, rest[m]? = some r → (w.used (pre.length + m) = true ↔ r.key ∈ pre.map Report.key)

section

variable (path : UInt32 → UInt32 → List Text) {c : Cell} {start : Estimator} {w : Walk}
  {picFlowEnd : ℕ} {pre post : List Report} {q : Report} (later : List Report)

/-- A call of `Add_result` on the reports of a flow that has not been combined. -/
theorem Walk.Combined.estimateFlow {reports : List Report}
    (h : w.Combined c start reports pre) (hreports : reports = pre ++ q :: post)
    (hpost : post ≠ []) (hend : pre.length + post.length = picFlowEnd)
    (hknown : ∀ r ∈ reports, start.lesMoniteurs.Knows r)
    (hases : ∀ r ∈ reports, r.srcAs = c.srcAs ∧ r.dstAs = c.dstAs)
    (hnew : q.key ∉ pre.map Report.key) :
    Ends (fun _ => False)
      (fun w' => w'.Combined c start reports (pre ++ [q]) ∧
        ∀ k, w'.used k = true ↔ w.used k = true ∨ AtKey post (pre.length + 1) q.key k)
      (w.estimateFlow path picFlowEnd pre.length q (post ++ later)) := by
  have hpresent : ∀ r ∈ reports, w.st.lesMoniteurs.Knows r :=
    fun r hr => h.adresses.knows (hknown r hr)
  have hq : q ∈ reports := mem_of_eq_append hreports
  have hposts : ∀ r ∈ post, r ∈ reports := fun r hr =>
    hreports ▸ List.mem_append_right pre (List.mem_cons_of_mem q hr)
  have hlength := List.length_pos_of_ne_nil hpost
  rw [Walk.estimateFlow]
  refine (addCalcul_ends (hpresent q hq) []).bind fun calcul hcalcul => ?_
  rw [if_pos ⟨List.append_ne_nil_of_left_ne_nil hpost later, by omega⟩]
  refine (collectFlow_ends q later hpost (fun r hr => hpresent r (hposts r hr)) (by omega)
    w.used calcul).bind fun ⟨used, calcul⟩ ⟨hflows, hused⟩ => ?_
  -- the report is the first of its flow, so the group is it and those behind it
  have hgroup : calcul.map CalculList.flow = group Report.key reports q.key := by
    rw [hflows, hcalcul, hreports, group_append_cons hnew]
    rfl
  have hne : calcul ≠ [] := by
    rintro rfl
    rw [hreports, group_append_cons hnew] at hgroup
    cases hgroup
  have hmem : ∀ cl ∈ calcul, cl.flow ∈ reports := fun cl hcl =>
    (mem_group.mp (hgroup ▸ List.mem_map_of_mem hcl)).1
  simp only
  rw [if_pos hne]
  refine (addResult_ends path hne (fun cl hcl => hpresent _ (hmem cl hcl))
    fun cl hcl => hases _ (hmem cl hcl)).bind fun st hst => ?_
  obtain ⟨hadresses, r, hnumber, happended⟩ := hst
  refine ⟨⟨h.adresses.trans hadresses, ?_, ?_⟩, hused⟩
  · rw [firsts_append_singleton, if_neg hnew, List.map_append, List.map_append, h.calls,
      List.map_singleton, List.map_singleton, hgroup]
  · obtain ⟨rs, hrs, hold⟩ := h.results
    refine ⟨rs ++ [r], ?_, hold.trans happended⟩
    rw [List.map_append, List.map_append, hrs, List.map_singleton, List.map_singleton, hnumber]

/-- A report of a flow that has been combined adds no flow. -/
theorem Walk.Combined.repeated {reports : List Report} (h : w.Combined c start reports pre)
    (hold : q.key ∈ pre.map Report.key) : w.Combined c start reports (pre ++ [q]) where
  adresses := h.adresses
  calls := by rw [firsts_append_singleton, if_pos hold, List.append_nil, h.calls]
  results := h.results

/-- The mark and the count of a node change nothing about the flows. -/
theorem Walk.Combined.mark {reports : List Report} (h : w.Combined c start reports pre)
    (used : ℕ → Bool) (ab : UInt64) :
    Walk.Combined c start reports pre { w with used := used, ab := ab } :=
  ⟨h.adresses, h.calls, h.results⟩

/-- The body of the loop in front of `PicFlow_End`. -/
theorem Walk.Visited.visit (h : w.Visited c start pre (q :: post)) (hpost : post ≠ [])
    (hend : pre.length + post.length = picFlowEnd)
    (hknown : ∀ r ∈ pre ++ q :: post, start.lesMoniteurs.Knows r)
    (hases : ∀ r ∈ pre ++ q :: post, r.srcAs = c.srcAs ∧ r.dstAs = c.dstAs) :
    Ends (fun _ => False) (Walk.Visited c start (pre ++ [q]) post)
      (w.visit path picFlowEnd pre.length q (post ++ later)) := by
  have hsplit : pre ++ q :: post = pre ++ [q] ++ post := List.append_cons ..
  have hlength : (pre ++ [q]).length = pre.length + 1 := List.length_append
  have hmark : w.used pre.length = true ↔ q.key ∈ pre.map Report.key := h.marks 0 q rfl
  -- the marks of the reports behind `q`
  have hrest : ∀ m r, post[m]? = some r →
      (w.used ((pre ++ [q]).length + m) = true ↔ r.key ∈ pre.map Report.key) := fun m r hr => by
    have := h.marks (m + 1) r hr
    rwa [← Nat.add_assoc, Nat.add_right_comm, ← hlength] at this
  have hother : ∀ m, (pre ++ [q]).length + m ≠ pre.length := fun m => by
    rw [hlength]
    omega
  rw [Walk.visit]
  by_cases hold : q.key ∈ pre.map Report.key
  · rw [if_pos (hmark.mpr hold), ok_bind]
    refine ⟨hsplit ▸ (h.toCombined.repeated hold).mark _ _, fun m r hr => ?_⟩
    show Function.update w.used pre.length true _ = true ↔ _
    rw [Function.update_of_ne (hother m), hrest m r hr, List.map_append, List.mem_append,
      List.map_singleton, List.mem_singleton]
    exact ⟨.inl, fun hr => hr.elim id fun heq => heq ▸ hold⟩
  · rw [if_neg fun hused => hold (hmark.mp hused)]
    refine (h.toCombined.estimateFlow path later rfl hpost hend hknown hases hold).bind
      fun w' ⟨hcombined, hused⟩ => ⟨hsplit ▸ hcombined.mark _ _, fun m r hr => ?_⟩
    show Function.update w'.used pre.length true _ = true ↔ _
    rw [Function.update_of_ne (hother m), hused, hrest m r hr, hlength,
      atKey_add hr, List.map_append, List.mem_append, List.map_singleton, List.mem_singleton]

/-- The body of the loop at `PicFlow_End`: a flow that has not been combined is dropped. -/
theorem Walk.Visited.visit_last (h : w.Visited c start pre [q])
    (hknown : ∀ r ∈ pre ++ [q], start.lesMoniteurs.Knows r) :
    Ends (fun _ => False) (Walk.Combined c start (pre ++ [q]) pre)
      (w.visit path pre.length pre.length q later) := by
  have hq : w.st.lesMoniteurs.Knows q :=
    h.adresses.knows (hknown q (mem_of_eq_append rfl))
  rw [Walk.visit]
  by_cases hused : w.used pre.length = true
  · rw [if_pos hused, ok_bind]
    exact h.toCombined.mark _ _
  · rw [if_neg hused, Walk.estimateFlow]
    refine Ends.bind (P := (· = w)) ?_ ?_
    · refine (addCalcul_ends hq []).bind fun calcul _ => ?_
      rw [if_neg fun hmore => hmore.2 rfl]
      rfl
    · rintro w' rfl
      exact h.toCombined.mark _ _

/-- The walk combines the flows that are reported in front of the last report. -/
theorem walkList_ends {rest : List Report} (hne : rest ≠ []) (h : w.Visited c start pre rest)
    (hend : pre.length + rest.length = picFlowEnd + 1)
    (hknown : ∀ r ∈ pre ++ rest, start.lesMoniteurs.Knows r)
    (hases : ∀ r ∈ pre ++ rest, r.srcAs = c.srcAs ∧ r.dstAs = c.dstAs) :
    Ends (fun _ => False) (Walk.Combined c start (pre ++ rest) (pre ++ rest).dropLast)
      (walkList path picFlowEnd pre.length (rest ++ later) w) := by
  induction rest generalizing pre w with
  | nil => exact absurd rfl hne
  | cons q post ih =>
    rw [List.length_cons] at hend
    rw [List.cons_append, walkList]
    by_cases hpost : post = []
    · subst hpost
      obtain rfl : pre.length = picFlowEnd := by simpa using hend
      refine (h.visit_last path later hknown).bind fun w' hw' => ?_
      rw [if_neg fun hne => hne rfl, List.dropLast_concat]
      exact hw'
    · have hmore : pre.length ≠ picFlowEnd := by
        have := List.length_pos_of_ne_nil hpost
        omega
      refine (h.visit path later hpost (by omega) hknown hases).bind fun w' hw' => ?_
      have hlength : (pre ++ [q]).length = pre.length + 1 := List.length_append
      rw [if_pos hmore, List.append_cons, ← hlength]
      exact ih hpost hw' (by omega)
        (List.append_cons pre q post ▸ hknown) (List.append_cons pre q post ▸ hases)

end

/-- The walk over the reports of an AS pair combines all but the last. -/
theorem walkCell_ends (path : UInt32 → UInt32 → List Text) {c : Cell} (snapshot : Snapshot c)
    {st : Estimator} (ab : UInt64) (hknown : ∀ r ∈ snapshot.reports, st.lesMoniteurs.Knows r) :
    Ends (fun _ => False)
      (Walk.Combined c st snapshot.reports snapshot.reports.dropLast)
      (walkCell path snapshot st ab) := by
  have hstart : ∀ reports : List Report,
      Walk.Combined c st reports [] { st := st, ab := ab } :=
    fun _ => ⟨fun _ => rfl, rfl, [], rfl, .refl c st⟩
  rw [walkCell]
  by_cases hempty : snapshot.reports = []
  · rw [if_pos hempty, hempty]
    exact hstart []
  · rw [if_neg hempty]
    have hlength := List.length_pos_of_ne_nil hempty
    have hvisited : Walk.Visited c st [] snapshot.reports { st := st, ab := ab } :=
      ⟨hstart _, fun m r _ => by simp⟩
    refine walkList_ends path snapshot.later hempty hvisited ?_ hknown
      fun r hr => ⟨snapshot.srcAs r hr, snapshot.dstAs r hr⟩
    rw [List.length_nil, Nat.zero_add, Nat.sub_add_cancel hlength]

/-! ## A round -/

/-- What a round has done with the list of an AS pair. -/
structure Estimates.Combined (c : Cell) (start : Estimator) (reports : List Report)
    (e : Estimates) : Prop where
  calls : (e.calls c).map (List.map CalculList.flow) =
    (firsts Report.key reports.dropLast).map (group Report.key reports)
  results : ∃ rs : List ResultList,
    rs.map ResultList.rapportNumber = (e.calls c).map (fun calcul => (calcul.length : ℤ)) ∧
      e.st.result c.srcAs c.dstAs = start.result c.srcAs c.dstAs ++ rs

/-- The loops come to each AS pair once. -/
theorem nodup_cellsInOrder : cellsInOrder.Nodup :=
  (List.nodup_finRange _).product (List.nodup_finRange _)

/-- The loops come to every AS pair. -/
theorem mem_cellsInOrder (c : Cell) : c ∈ cellsInOrder :=
  List.mem_product.mpr ⟨List.mem_finRange _, List.mem_finRange _⟩

/-- A round combines the reports of every AS pair. -/
theorem estimateRound_ends (path : UInt32 → UInt32 → List Text) (snapshots : ∀ c, Snapshot c)
    {st : Estimator} (hknown : ∀ c, ∀ r ∈ (snapshots c).reports, st.lesMoniteurs.Knows r) :
    Ends (fun _ => False) (fun e => ∀ c, e.Combined c st (snapshots c).reports)
      (estimateRound path snapshots st) := by
  refine (Ends.foldlM (I := fun pre e => st.lesMoniteurs.SameAdresses e.st.lesMoniteurs ∧
    (∀ c ∈ pre, e.Combined c st (snapshots c).reports) ∧
    ∀ c, c ∉ pre → e.st.result c.srcAs c.dstAs = st.result c.srcAs c.dstAs)
    ?_ ⟨fun _ => rfl, fun c hc => absurd hc List.not_mem_nil, fun _ _ => rfl⟩).imp
    (fun _ => id) fun e he c => he.2.1 c (mem_cellsInOrder c)
  intro pre c post e heq ⟨hadresses, hdone, hrest⟩
  have hnew : c ∉ pre := fun hmem =>
    (List.nodup_append.mp (heq ▸ nodup_cellsInOrder)).2.2 c hmem c List.mem_cons_self rfl
  refine (walkCell_ends path (snapshots c) e.ab
    fun r hr => hadresses.knows (hknown c r hr)).bind fun w hw => ?_
  obtain ⟨rs, hrs, happended⟩ := hw.results
  refine ⟨hadresses.trans hw.adresses, fun d hd => ?_, fun d hd => ?_⟩
  · -- the pair of this round, and those of the rounds before
    by_cases hdc : d = c
    · subst hdc
      refine ⟨?_, rs, ?_, ?_⟩
      · simp only [Function.update_self]
        exact hw.calls
      · simp only [Function.update_self]
        exact hrs
      · rw [← hrest d hnew]
        exact happended.here
    · have hd' := hdone d
        ((List.mem_append.mp hd).resolve_right fun h => hdc (List.mem_singleton.mp h))
      obtain ⟨rs', hrs', hresult⟩ := hd'.results
      refine ⟨?_, rs', ?_, ?_⟩
      · simp only [Function.update_of_ne hdc]
        exact hd'.calls
      · simp only [Function.update_of_ne hdc]
        exact hrs'
      · rw [← hresult]
        exact happended.elsewhere d hdc
  · -- a pair that is still to come has its results as at the start
    rw [List.mem_append, List.mem_singleton, not_or] at hd
    rw [← hrest d hd.1]
    exact happended.elsewhere d hd.2

/-- Every flow of the list has been combined once from all its reports. -/
structure Estimates.OncePerFlow (c : Cell) (start : Estimator) (reports : List Report)
    (e : Estimates) : Prop where
  calls : OncePerKey Report.key reports ((e.calls c).map (List.map CalculList.flow))
  results : ∃ rs : List ResultList, rs.length = (reports.map Report.key).dedup.length ∧
    (rs.map ResultList.rapportNumber).sum = reports.length ∧
    e.st.result c.srcAs c.dstAs = start.result c.srcAs c.dstAs ++ rs

/-- Every flow of an AS pair has a result exactly when the last report repeats a flow. -/
theorem Estimates.Combined.oncePerFlow_iff {c : Cell} {start : Estimator} {reports : List Report}
    {e : Estimates} (h : e.Combined c start reports) :
    e.OncePerFlow c start reports ↔ LastRepeats Report.key reports := by
  rw [← oncePerKey_dropLast_iff, ← h.calls]
  refine ⟨Estimates.OncePerFlow.calls, fun honce => ⟨honce, ?_⟩⟩
  obtain ⟨rs, hrs, hresult⟩ := h.results
  have hlengths : rs.map ResultList.rapportNumber =
      (((e.calls c).map (List.map CalculList.flow)).map List.length).map (Nat.cast : ℕ → ℤ) := by
    rw [hrs, List.map_map, List.map_map]
    exact List.map_congr_left fun calcul _ => by
      rw [Function.comp_apply, Function.comp_apply, List.length_map]
  refine ⟨rs, ?_, ?_, hresult⟩
  · rw [← honce.length_eq, List.length_map, ← List.length_map ResultList.rapportNumber, hrs,
      List.length_map]
  · rw [hlengths, ← Nat.cast_list_sum, honce.sum_length]

/-- A round always ends. Every flow of a list is combined once, from all its reports, exactly when
the flow of the last report has been reported before in the list. -/
theorem estimateRound_oncePerFlow_iff (path : UInt32 → UInt32 → List Text)
    (snapshots : ∀ c, Snapshot c) (st : Estimator)
    (hknown : ∀ c, ∀ r ∈ (snapshots c).reports, st.lesMoniteurs.Knows r) :
    ∃ e, estimateRound path snapshots st = .ok e ∧
      ∀ c, e.OncePerFlow c st (snapshots c).reports ↔
        LastRepeats Report.key (snapshots c).reports := by
  obtain ⟨e, he, hcombined⟩ := (estimateRound_ends path snapshots hknown).exists_ok
  exact ⟨e, he, fun c => (hcombined c).oncePerFlow_iff⟩

/-- The pair of the first AS with itself. -/
def firstPair : Cell := (⟨0, by decide⟩, ⟨0, by decide⟩)

/-- The lists of a round that has the reports `reports` for the first AS pair. -/
def firstPairSnapshots (reports : List Report) (h : ∀ r ∈ reports, r.srcAs = 1 ∧ r.dstAs = 1)
    (c : Cell) : Snapshot c :=
  if hc : c = firstPair then
    { reports := reports
      srcAs := fun r hr => by rw [hc]; exact (h r hr).1
      dstAs := fun r hr => by rw [hc]; exact (h r hr).2 }
  else
    { reports := [], srcAs := by simp, dstAs := by simp }

/-- The monitors of the reports are known. -/
theorem knows_firstPairSnapshots {reports : List Report}
    (h : ∀ r ∈ reports, r.srcAs = 1 ∧ r.dstAs = 1) {ms : LesMoniteurs}
    (hknown : ∀ r ∈ reports, ms.Knows r) (c : Cell) :
    ∀ r ∈ (firstPairSnapshots reports h c).reports, ms.Knows r := by
  intro r hr
  rw [firstPairSnapshots] at hr
  split at hr
  · exact hknown r hr
  · cases hr

/-- A report of a monitor with the source port `srcPort`. -/
def sampleReport (srcPort : UInt16) : Report where
  agentAddr := [49]
  srcAddr := [50]
  dstAddr := [51]
  srcPort := srcPort
  dstPort := 80
  flowPackets := 5
  protocol := 6
  srcAs := 1
  dstAs := 1

/-- Monitors with the address of these reports. -/
def sampleEstimator : Estimator where
  lesMoniteurs := fun _ => { samplingRate := 0.005, adresse := [49] }

/-- Three reports of two flows, of which the last one is of the first flow again. -/
def repeatedReports : List Report := [sampleReport 1, sampleReport 2, sampleReport 1]

/-- Both flows are combined. -/
theorem estimateRound_repeatedReports :
    ∃ e, estimateRound (fun _ _ => [[49]]) (firstPairSnapshots repeatedReports (by decide))
        sampleEstimator = .ok e ∧ e.OncePerFlow firstPair sampleEstimator repeatedReports := by
  obtain ⟨e, he, honce⟩ := estimateRound_oncePerFlow_iff (fun _ _ => [[49]])
    (firstPairSnapshots repeatedReports (by decide)) sampleEstimator
    (knows_firstPairSnapshots _ (by decide +kernel))
  exact ⟨e, he, (honce firstPair).mpr (by decide)⟩

/-- The only report of a round is never combined. -/
theorem estimateRound_onlyReport :
    (∀ c, ∀ r ∈ (firstPairSnapshots [sampleReport 1] (by decide) c).reports,
      sampleEstimator.lesMoniteurs.Knows r) ∧
    ∃ e, estimateRound (fun _ _ => [[49]]) (firstPairSnapshots [sampleReport 1] (by decide))
        sampleEstimator = .ok e ∧ e.calls firstPair = [] ∧ e.st.result 1 1 = [] ∧
      ¬e.OncePerFlow firstPair sampleEstimator [sampleReport 1] := by
  have hrun : (estimateRound (fun _ _ => [[49]])
      (firstPairSnapshots [sampleReport 1] (by decide)) sampleEstimator).map
        (fun e => (e.calls firstPair, e.st.result 1 1)) = .ok ([], []) := by decide +kernel
  refine ⟨knows_firstPairSnapshots _ (by decide +kernel), ?_⟩
  cases he : estimateRound (fun _ _ => [[49]])
    (firstPairSnapshots [sampleReport 1] (by decide)) sampleEstimator with
  | error f =>
    rw [he] at hrun
    cases hrun
  | ok e =>
    rw [he] at hrun
    have hcalls : e.calls firstPair = [] := (Prod.ext_iff.mp (Except.ok.inj hrun)).1
    refine ⟨e, rfl, hcalls, (Prod.ext_iff.mp (Except.ok.inj hrun)).2, fun honce => ?_⟩
    have hone := honce.calls.length_eq
    rw [hcalls] at hone
    cases hone

end Estimation
