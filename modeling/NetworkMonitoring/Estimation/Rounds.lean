import NetworkMonitoring.Estimation.FlowLists

/-!
# Estimation — rounds beside `Add_flow` and the timer

Three threads share the report lists and the counters: the one that calls `Add_flow`, `fcompteur`,
which counts the seconds, and `Estimation`, which starts a round after 60 seconds or when there is
an overhead. `Add_flow` and `liberer_flow` hold a semaphore, so each of them is one step;
`Estimation` otherwise reads and writes one shared variable in a step. What a round does with the
reports it walks over, and what it sends and prints, touches none of these variables.

`State.Inv` is the invariant of the lists and of the place that a round has come to, and
`State.Inv.step` that every step keeps it. `State.Accounted` is what it says about the reports.
-/

namespace Estimation

open LinkedLists ErrorLoops

/-! ## The threads -/

/-- The next statement of `Estimation`. -/
inductive Pc where
  /-- `compteur >= 60`. -/
  | compteurTest
  /-- `overhead == 1`. -/
  | overheadTest
  | copyOverhead
  | copyCompteur
  | copyCompteur2
  /-- `PicFlow_End` is set for the AS pairs `cells`. -/
  | setPicFlowEnd (cells : List Cell)
  | copyTaille
  /-- The walks over the lists of `cells`, which begin with a test of `PicFlow_End`. -/
  | picFlowEndTest (cells : List Cell)
  /-- The body of the walk at the node `pCourant`. -/
  | visit (pCourant : Adresse) (c : Cell) (cells : List Cell)
  /-- `pCourant = pCourant->next`. -/
  | advance (pCourant : Adresse) (c : Cell) (cells : List Cell)
  | sizevalTest
  /-- `debit = sizeval / local_compteur`. -/
  | divide
  | libererFlow
  | clearOverhead
  | clearCompteur
  deriving DecidableEq

/-- What has been done with reports so far. -/
structure History where
  /-- The reports that `Add_flow` has put into the lists. -/
  added : Cell → List Report := fun _ => []
  /-- The reports that the current round has walked over. -/
  walked : Cell → List Report := fun _ => []
  /-- The reports that the rounds before have walked over. -/
  rounds : List (Cell → List Report) := []

/-- The shared variables, and those of `Estimation`. -/
structure State where
  lists : FlowLists := {}
  thrd : Bool := false
  overhead : ℤ := 0
  compteur : Int32 := 0
  compteur2 : Int32 := 0
  sizeval : UInt64 := 0
  localOverhead : ℤ := 0
  localCompteur : Int32 := 0
  localCompteur2 : Int32 := 0
  pc : Pc := .compteurTest
  history : History := {}

/-- `Add_flow`. It starts the other threads with the first report. -/
def State.addFlow (threshold : Int32) (s : State) (ff : Report) (pNouveau : Adresse) :
    Except Crash State :=
  match ff.cell with
  | none => .ok s
  | some c => do
    let lists ← s.lists.addFlow c ff pNouveau
    let history := { s.history with
      added := Function.update s.history.added c (s.history.added c ++ [ff]) }
    return { s with
      lists := lists, history := history
      thrd := s.thrd || (s.lists.chemin c).addFlow == nul
      overhead := if UInt64.ofInt threshold.toInt ≤ lists.taille then 1 else s.overhead }

/-- One iteration of `fcompteur`. -/
def State.tick (s : State) : State :=
  { s with compteur := s.compteur + 1, compteur2 := s.compteur2 + 1 }

/-- The next statement of `Estimation` is executed. -/
def State.estimate (s : State) : Except Crash State :=
  match s.pc with
  | .compteurTest => .ok { s with pc := if 60 ≤ s.compteur then .copyOverhead else .overheadTest }
  | .overheadTest => .ok { s with pc := if s.overhead = 1 then .copyOverhead else .compteurTest }
  | .copyOverhead => .ok { s with localOverhead := s.overhead, pc := .copyCompteur }
  | .copyCompteur => .ok { s with localCompteur := s.compteur, pc := .copyCompteur2 }
  | .copyCompteur2 =>
    .ok { s with localCompteur2 := s.compteur2, pc := .setPicFlowEnd cellsInOrder }
  | .setPicFlowEnd [] => .ok { s with pc := .copyTaille }
  -- the snapshot of a list ends at its last node, which `Add_flow` may leave behind itself
  | .setPicFlowEnd (c :: cells) =>
    let ch := s.lists.chemin c
    .ok { s with
      lists := s.lists.setChemin c { ch with picFlowEnd := ch.addFlow }
      pc := .setPicFlowEnd cells }
  | .copyTaille => .ok { s with sizeval := s.lists.taille, pc := .picFlowEndTest cellsInOrder }
  | .picFlowEndTest [] => .ok { s with pc := .sizevalTest }
  | .picFlowEndTest (c :: cells) =>
    let ch := s.lists.chemin c
    .ok { s with
      pc := if ch.picFlowEnd ≠ nul then .visit ch.flowList c cells else .picFlowEndTest cells }
  | .visit pCourant c cells => do
    let n ← s.lists.deref pCourant
    let history := { s.history with
      walked := Function.update s.history.walked c (s.history.walked c ++ [n.item]) }
    return { s with
      history := history
      pc := if pCourant ≠ (s.lists.chemin c).picFlowEnd ∧ pCourant ≠ nul then
        .advance pCourant c cells else .picFlowEndTest cells }
  | .advance pCourant c cells => do
    let n ← s.lists.deref pCourant
    return { s with pc := .visit n.next c cells }
  -- without a report at the time of the copy the estimation is left out
  | .sizevalTest => .ok { s with pc := if s.sizeval ≠ 0 then .divide else .clearCompteur }
  -- `debit = sizeval / local_compteur`
  | .divide => if s.localCompteur = 0 then .error .division else .ok { s with pc := .libererFlow }
  | .libererFlow => do
    let lists ← s.lists.libererFlow
    let history := { s.history with
      walked := fun _ => [], rounds := s.history.rounds ++ [s.history.walked] }
    return { s with lists := lists, history := history, pc := .clearOverhead }
  | .clearOverhead =>
    .ok { s with overhead := 0, localOverhead := 0, sizeval := 0, pc := .clearCompteur }
  | .clearCompteur =>
    .ok { s with compteur := 0, localCompteur := 0, localCompteur2 := 0, pc := .compteurTest }

/-- A step of one of the threads. -/
inductive Action where
  | addFlow (ff : Report) (pNouveau : Adresse)
  | tick
  | estimate

/-- `malloc` returns a free address, and the other threads have been started. -/
def State.Enabled (s : State) : Action → Prop
  | .addFlow _ pNouveau => pNouveau ≠ nul ∧ s.lists.heap pNouveau = none
  | .tick => s.thrd = true
  | .estimate => s.thrd = true

def State.step (threshold : Int32) (s : State) : Action → Except Crash State
  | .addFlow ff pNouveau => s.addFlow threshold ff pNouveau
  | .tick => .ok s.tick
  | .estimate => s.estimate

/-- The states that the threads come to in any order of their steps, when each step meets the
condition `ok`. -/
inductive Run (threshold : Int32) (ok : State → Action → Prop) : State → Prop
  | start : Run threshold ok {}
  | step {s s' : State} (h : Run threshold ok s) (a : Action) (henabled : s.Enabled a)
    (hok : ok s a) (hstep : s.step threshold a = .ok s') : Run threshold ok s'

/-! ## The invariant -/

/-- `PicFlow_End` of the AS pair has been set in this round. -/
def Pc.Taken (c : Cell) : Pc → Prop
  | .setPicFlowEnd cells => c ∉ cells
  | .copyTaille | .picFlowEndTest _ | .visit _ _ _ | .advance _ _ _ | .sizevalTest | .divide
  | .libererFlow => True
  | _ => False

/-- `sizeval` has been read in this round. -/
def Pc.Sized : Pc → Prop
  | .picFlowEndTest _ | .visit _ _ _ | .advance _ _ _ | .sizevalTest => True
  | _ => False

/-- The walk has come to the AS pairs `cells`, those of the others are complete. -/
def WalkedBut (cells : List Cell) (pre : Nodes) (walked : Cell → List Report) (c : Cell) : Prop :=
  walked c = if c ∈ cells then [] else (pre c).map Prod.snd

/-- What has been walked of the nodes `pre`, which were in the lists when `PicFlow_End` was set. -/
def Pc.Walked (pre : Nodes) (walked : Cell → List Report) : Pc → Prop
  | .picFlowEndTest cells => cells.Nodup ∧ ∀ c, WalkedBut cells pre walked c
  | .visit p c cells =>
    (c :: cells).Nodup ∧ (∀ d, d ≠ c → WalkedBut cells pre walked d) ∧
      ∃ done r rest, pre c = done ++ (p, r) :: rest ∧ walked c = done.map Prod.snd
  | .advance p c cells =>
    (c :: cells).Nodup ∧ (∀ d, d ≠ c → WalkedBut cells pre walked d) ∧
      ∃ done r rest, rest ≠ [] ∧ pre c = done ++ (p, r) :: rest ∧
        walked c = (done ++ [(p, r)]).map Prod.snd
  | .sizevalTest | .divide | .libererFlow => ∀ c, walked c = (pre c).map Prod.snd
  | _ => ∀ c, walked c = []

/-- The lists have the nodes `nodes`, of which a round takes `pre`. -/
structure State.Inv (s : State) (nodes pre : Nodes) : Prop where
  lists : s.lists.Holds nodes
  added : ∀ c, s.history.rounds.flatMap (· c) ++ (nodes c).map Prod.snd = s.history.added c
  ases : ∀ c, ∀ r ∈ s.history.added c, r.srcAs = c.srcAs ∧ r.dstAs = c.dstAs
  taken : ∀ c, s.pc.Taken c →
    pre c <+: nodes c ∧ (s.lists.chemin c).picFlowEnd = lastAddress nul (pre c)
  sized : s.pc.Sized → s.sizeval = 0 → ∀ c, pre c = []
  walked : s.pc.Walked pre s.history.walked

variable {threshold : Int32} {ok : State → Action → Prop} {s s' : State} {nodes pre : Nodes}

theorem State.inv_start : State.Inv {} (fun _ => []) fun _ => [] where
  lists := FlowLists.holds_empty
  added _ := rfl
  ases _ _ hr := absurd hr List.not_mem_nil
  taken _ h := h.elim
  sized h := h.elim
  walked _ := rfl

/-- A report behind the nodes that the round takes. -/
theorem State.Inv.addFlow (h : s.Inv nodes pre) {ff : Report} {p : Adresse} (hp : p ≠ nul)
    (hfree : s.lists.heap p = none) :
    Ends (fun _ => False) (fun s' => ∃ nodes', s'.Inv nodes' pre) (s.addFlow threshold ff p) := by
  rw [State.addFlow]
  cases hcell : ff.cell with
  | none => exact ⟨nodes, h⟩
  | some c =>
    refine (h.lists.addFlow_ends hp hfree c ff).bind fun lists ⟨hlists, hpic⟩ => ?_
    refine ⟨_, hlists, fun d => ?_, fun d r hr => ?_, fun d hd => ?_, h.sized, h.walked⟩
    · by_cases hdc : d = c
      · simp only [hdc, Function.update_self]
        rw [List.map_append, ← List.append_assoc, h.added]
        rfl
      · simp only [Function.update_of_ne hdc]
        exact h.added d
    · by_cases hdc : d = c
      · simp only [hdc, Function.update_self] at hr ⊢
        rcases List.mem_append.mp hr with hr | hr
        · exact h.ases c r hr
        · rw [List.mem_singleton.mp hr]
          exact Report.cell_eq_some hcell
      · simp only [Function.update_of_ne hdc] at hr
        exact h.ases d r hr
    · obtain ⟨hpre, hend⟩ := h.taken d hd
      refine ⟨?_, (hpic d).trans hend⟩
      by_cases hdc : d = c
      · rw [hdc, Function.update_self]
        exact hdc ▸ hpre.trans (List.prefix_append _ _)
      · rw [Function.update_of_ne hdc]
        exact hpre

/-- A second changes nothing about the lists. -/
theorem State.Inv.tick (h : s.Inv nodes pre) : s.tick.Inv nodes pre :=
  ⟨h.lists, h.added, h.ases, h.taken, h.sized, h.walked⟩

/-! ## The statements of a round -/

/-- A statement that leaves the lists and the history as they are. -/
theorem State.Inv.move (h : s.Inv nodes pre) (hlists : s'.lists = s.lists)
    (hhistory : s'.history = s.history) (htaken : ∀ c, s'.pc.Taken c → s.pc.Taken c)
    (hsized : s'.pc.Sized → s'.sizeval = 0 → ∀ c, pre c = [])
    (hwalked : s'.pc.Walked pre s.history.walked) : s'.Inv nodes pre where
  lists := hlists ▸ h.lists
  added := hhistory ▸ h.added
  ases := hhistory ▸ h.ases
  taken c hc := hlists ▸ h.taken c (htaken c hc)
  sized := hsized
  walked := hhistory ▸ hwalked

theorem FlowLists.Holds.setPicFlowEnd {l : FlowLists} (h : l.Holds nodes) (c : Cell)
    (picFlowEnd : Adresse) :
    (l.setChemin c { l.chemin c with picFlowEnd := picFlowEnd }).Holds nodes := by
  have hsame : ∀ d, ((l.setChemin c { l.chemin c with picFlowEnd := picFlowEnd }).chemin d) =
      { l.chemin d with picFlowEnd := if d = c then picFlowEnd else (l.chemin d).picFlowEnd } := by
    intro d
    by_cases hd : d = c
    · simp [FlowLists.setChemin, hd]
    · simp [FlowLists.setChemin, hd]
  exact {
    null := h.null
    segment := fun d => by rw [hsame]; exact h.segment d
    addFlow := fun d => by rw [hsame]; exact h.addFlow d
    taille := fun d => by rw [hsame]; exact h.taille d
    total := h.total
    nodup := h.nodup
    disjoint := h.disjoint }

/-- `PicFlow_End` is set for one more AS pair: the round takes the nodes that its list has now. -/
theorem State.Inv.setPicFlowEnd (h : s.Inv nodes pre) {c : Cell} {cells : List Cell}
    (hpc : s.pc = .setPicFlowEnd (c :: cells)) :
    State.Inv { s with
      lists := s.lists.setChemin c
        { s.lists.chemin c with picFlowEnd := (s.lists.chemin c).addFlow }
      pc := .setPicFlowEnd cells } nodes (Function.update pre c (nodes c)) where
  lists := h.lists.setPicFlowEnd c _
  added := h.added
  ases := h.ases
  taken d hd := by
    by_cases hdc : d = c
    · simp only [FlowLists.setChemin, hdc, Function.update_self]
      exact ⟨List.prefix_rfl, h.lists.addFlow c⟩
    · simp only [FlowLists.setChemin, Function.update_of_ne hdc]
      refine h.taken d ?_
      rw [hpc]
      exact fun hmem => (List.mem_cons.mp hmem).elim hdc hd
  sized hsized := hsized.elim
  walked := by
    have hwalked := h.walked
    rw [hpc] at hwalked
    exact hwalked

/-- When no report has been counted, the round takes none. -/
theorem State.Inv.pre_eq_nil (h : s.Inv nodes pre) (htaken : ∀ c, s.pc.Taken c)
    (hzero : s.lists.taille = 0) (c : Cell) : pre c = [] := by
  have hsum : ∑ c, (nodes c).length = 0 := by
    have hmod := congrArg UInt64.toNat (h.lists.total.symm.trans hzero)
    rwa [UInt64.toNat_ofNat_of_lt' h.lists.sum_length_lt] at hmod
  have hnodes : nodes c = [] :=
    List.eq_nil_of_length_eq_zero (Finset.sum_eq_zero_iff.mp hsum c (Finset.mem_univ c))
  exact List.prefix_nil.mp (hnodes ▸ (h.taken c (htaken c)).1)

/-- A node that the round takes. -/
theorem State.Inv.inside (h : s.Inv nodes pre) {c : Cell} (hc : s.pc.Taken c) {p : Adresse}
    {r : Report} {done rest : List (Adresse × Report)} (hpre : pre c = done ++ (p, r) :: rest) :
    ∃ n, s.lists.deref p = .ok ⟨r, n⟩ ∧ p ≠ nul ∧ (∀ x ∈ rest.head?, n = x.1) ∧
      (p = (s.lists.chemin c).picFlowEnd ↔ rest = []) := by
  obtain ⟨⟨post, hpost⟩, hend⟩ := h.taken c hc
  have hnodes : nodes c = done ++ (p, r) :: (rest ++ post) := by
    rw [← hpost, hpre, List.append_assoc, List.cons_append]
  have hsegment := h.lists.segment c
  rw [hnodes] at hsegment
  obtain ⟨n, hn, hrest⟩ := hsegment.inside
  refine ⟨n, FlowLists.deref_eq hn, ?_, fun x hx => ?_, ?_⟩
  · rintro rfl
    rw [h.lists.null] at hn
    cases hn
  · obtain ⟨rest', rfl⟩ := List.head?_eq_some_iff.mp hx
    exact hrest.start
  · rw [hend, hpre]
    refine ⟨fun hlast => ?_, fun hempty => ?_⟩
    · -- another last node would have another address
      rcases List.eq_nil_or_concat rest with hempty | ⟨rest', x, rfl⟩
      · exact hempty
      · rw [List.concat_eq_append, ← List.cons_append, ← List.append_assoc,
          lastAddress_concat] at hlast
        have hnodup := h.lists.nodup c
        rw [hnodes, List.map_append, List.map_cons] at hnodup
        refine absurd ?_ (List.nodup_cons.mp (List.nodup_append.mp hnodup).2.1).1
        simp [hlast]
    · rw [hempty, lastAddress_concat]

/-- The walk over a list begins, unless `PicFlow_End` is NULL. -/
theorem State.Inv.picFlowEndTest (h : s.Inv nodes pre) {c : Cell} {cells : List Cell}
    (hpc : s.pc = .picFlowEndTest (c :: cells)) :
    State.Inv { s with
      pc := if (s.lists.chemin c).picFlowEnd ≠ nul then
        .visit (s.lists.chemin c).flowList c cells else .picFlowEndTest cells } nodes pre := by
  have htaken : ∀ d, s.pc.Taken d := fun d => by rw [hpc]; trivial
  have hsized : s.sizeval = 0 → ∀ c, pre c = [] := h.sized (by rw [hpc]; trivial)
  obtain ⟨hnodup, hwalked⟩ : (c :: cells).Nodup ∧
      ∀ d, WalkedBut (c :: cells) pre s.history.walked d := by
    have := h.walked
    rwa [hpc] at this
  obtain ⟨hpre, hend⟩ := h.taken c (htaken c)
  have hc : s.history.walked c = [] := (hwalked c).trans (if_pos List.mem_cons_self)
  have hothers : ∀ d, d ≠ c → WalkedBut cells pre s.history.walked d := fun d hd => by
    rw [WalkedBut, hwalked d]
    simp only [List.mem_cons, hd, false_or]
  -- a list without a snapshot is passed over; otherwise its walk begins at the first node
  cases hcase : pre c with
  | nil =>
    rw [hcase, lastAddress_nil] at hend
    rw [if_neg fun hne => hne hend]
    refine h.move rfl rfl (fun d _ => htaken d) (fun _ => hsized)
      ⟨(List.nodup_cons.mp hnodup).2, fun d => ?_⟩
    by_cases hd : d = c
    · rw [hd, WalkedBut, hc, hcase]
      simp
    · exact hothers d hd
  | cons x rest =>
    obtain ⟨post, hpost⟩ := hpre
    have hsegment := h.lists.segment c
    rw [← hpost] at hsegment
    have hne : (s.lists.chemin c).picFlowEnd ≠ nul := by
      rw [hend]
      intro heq
      rw [hsegment.lastAddress_eq_iff h.lists.null, hcase] at heq
      cases heq
    have hstart : (s.lists.chemin c).flowList = x.1 := by
      rw [hcase] at hsegment
      exact hsegment.start
    rw [if_pos hne, hstart]
    exact h.move rfl rfl (fun d _ => htaken d) (fun _ => hsized)
      ⟨hnodup, hothers, [], x.2, rest, hcase, hc⟩

/-- The node of the walk is one that the round takes. -/
theorem State.Inv.estimate_visit (h : s.Inv nodes pre) {p : Adresse} {c : Cell} {cells : List Cell}
    (hpc : s.pc = .visit p c cells) {r : Report} {done rest : List (Adresse × Report)}
    (hpre : pre c = done ++ (p, r) :: rest) :
    s.estimate = .ok { s with
      history := { s.history with
        walked := Function.update s.history.walked c (s.history.walked c ++ [r]) }
      pc := if rest = [] then .picFlowEndTest cells else .advance p c cells } := by
  obtain ⟨n, hn, hp, -, hlast⟩ := h.inside (by rw [hpc]; trivial) hpre
  rw [State.estimate, hpc]
  simp only
  rw [hn, ok_bind]
  by_cases hrest : rest = []
  · rw [if_pos hrest, if_neg fun hne => hne.1 (hlast.mpr hrest)]
    rfl
  · rw [if_neg hrest, if_pos ⟨fun heq => hrest (hlast.mp heq), hp⟩]
    rfl

/-- The next node is the one that the round takes next. -/
theorem State.Inv.estimate_advance (h : s.Inv nodes pre) {p q : Adresse} {c : Cell}
    {cells : List Cell} (hpc : s.pc = .advance p c cells) {r r' : Report}
    {done rest : List (Adresse × Report)} (hpre : pre c = done ++ (p, r) :: (q, r') :: rest) :
    s.estimate = .ok { s with pc := .visit q c cells } := by
  obtain ⟨n, hn, -, hnext, -⟩ := h.inside (by rw [hpc]; trivial) hpre
  obtain rfl : n = q := hnext (q, r') rfl
  rw [State.estimate, hpc]
  simp only
  rw [hn, ok_bind]
  rfl

/-- A report is walked over. -/
theorem State.Inv.visit (h : s.Inv nodes pre) {p : Adresse} {c : Cell} {cells : List Cell}
    (hpc : s.pc = .visit p c cells) :
    Ends (fun _ => False) (fun s' => s'.Inv nodes pre) s.estimate := by
  have htaken : ∀ d, s.pc.Taken d := fun d => by rw [hpc]; trivial
  have hsized : s.sizeval = 0 → ∀ c, pre c = [] := h.sized (by rw [hpc]; trivial)
  have hwalked := h.walked
  rw [hpc] at hwalked
  obtain ⟨hnodup, hothers, done, r, rest, hpre, hc⟩ := hwalked
  have hdone : Function.update s.history.walked c (s.history.walked c ++ [r]) c =
      (done ++ [(p, r)]).map Prod.snd := by
    rw [Function.update_self, hc, List.map_append]
    rfl
  have hothers' : ∀ d, d ≠ c → WalkedBut cells pre
      (Function.update s.history.walked c (s.history.walked c ++ [r])) d := fun d hd => by
    rw [WalkedBut, Function.update_of_ne hd]
    exact hothers d hd
  rw [h.estimate_visit hpc hpre]
  by_cases hrest : rest = []
  · rw [if_pos hrest]
    refine ⟨h.lists, h.added, h.ases, fun d _ => h.taken d (htaken d), fun _ => hsized,
      (List.nodup_cons.mp hnodup).2, fun d => ?_⟩
    by_cases hd : d = c
    · rw [hd, WalkedBut, if_neg (List.nodup_cons.mp hnodup).1, hpre, hrest]
      exact hdone
    · exact hothers' d hd
  · rw [if_neg hrest]
    exact ⟨h.lists, h.added, h.ases, fun d _ => h.taken d (htaken d), fun _ => hsized,
      hnodup, hothers', done, r, rest, hrest, hpre, hdone⟩

/-- The walk goes on to the next node. -/
theorem State.Inv.advance (h : s.Inv nodes pre) {p : Adresse} {c : Cell} {cells : List Cell}
    (hpc : s.pc = .advance p c cells) :
    Ends (fun _ => False) (fun s' => s'.Inv nodes pre) s.estimate := by
  have htaken : ∀ d, s.pc.Taken d := fun d => by rw [hpc]; trivial
  have hsized : s.sizeval = 0 → ∀ c, pre c = [] := h.sized (by rw [hpc]; trivial)
  have hwalked := h.walked
  rw [hpc] at hwalked
  obtain ⟨hnodup, hothers, done, r, rest, hrest, hpre, hc⟩ := hwalked
  obtain ⟨⟨q, r'⟩, rest, rfl⟩ := List.exists_cons_of_ne_nil hrest
  rw [h.estimate_advance hpc hpre]
  refine h.move rfl rfl (fun d _ => htaken d) (fun _ => hsized)
    ⟨hnodup, hothers, done ++ [(p, r)], r', rest, ?_, hc⟩
  rw [hpre, List.append_assoc, List.singleton_append]

/-- The reports that the round has walked over are freed. -/
theorem State.Inv.libererFlow (h : s.Inv nodes pre) (hpc : s.pc = .libererFlow) :
    Ends (fun _ => False) (fun s' => ∃ nodes', s'.Inv nodes' pre) s.estimate := by
  have htaken : ∀ d, s.pc.Taken d := fun d => by rw [hpc]; trivial
  have hwalked : ∀ c, s.history.walked c = (pre c).map Prod.snd := by
    have := h.walked
    rwa [hpc] at this
  choose post hpost using fun c => (h.taken c (htaken c)).1
  rw [State.estimate, hpc]
  simp only
  refine (h.lists.libererFlow_ends (fun c => (hpost c).symm)
    fun c => (h.taken c (htaken c)).2).bind fun lists hlists => ?_
  refine ⟨post, hlists, fun c => ?_, h.ases, fun _ hc => hc.elim, fun hsized => hsized.elim,
    fun _ => rfl⟩
  rw [← h.added c, ← hpost c, List.flatMap_append, List.flatMap_singleton, hwalked,
    List.map_append, List.append_assoc]

/-- Every statement of `Estimation` keeps the invariant, except that it may divide by 0. -/
theorem State.Inv.estimate (h : s.Inv nodes pre) :
    Ends (· = .division) (fun s' => ∃ nodes' pre', s'.Inv nodes' pre') s.estimate := by
  have hwalked := h.walked
  cases hpc : s.pc with
  | compteurTest =>
    rw [hpc] at hwalked
    rw [State.estimate, hpc]
    -- up to the copy of `compteur` nothing is taken, so nothing is to be shown of `pre`
    by_cases hmin : 60 ≤ s.compteur
    · simp only [if_pos hmin]
      exact ⟨nodes, pre, h.move rfl rfl (fun _ => False.elim) False.elim hwalked⟩
    · simp only [if_neg hmin]
      exact ⟨nodes, pre, h.move rfl rfl (fun _ => False.elim) False.elim hwalked⟩
  | overheadTest =>
    rw [hpc] at hwalked
    rw [State.estimate, hpc]
    by_cases hover : s.overhead = 1
    · simp only [if_pos hover]
      exact ⟨nodes, pre, h.move rfl rfl (fun _ => False.elim) False.elim hwalked⟩
    · simp only [if_neg hover]
      exact ⟨nodes, pre, h.move rfl rfl (fun _ => False.elim) False.elim hwalked⟩
  | copyOverhead | copyCompteur | clearOverhead | clearCompteur =>
    rw [hpc] at hwalked
    rw [State.estimate, hpc]
    exact ⟨nodes, pre, h.move rfl rfl (fun _ => False.elim) False.elim hwalked⟩
  | copyCompteur2 =>
    rw [hpc] at hwalked
    rw [State.estimate, hpc]
    exact ⟨nodes, pre, h.move rfl rfl (fun c hc => absurd (mem_cellsInOrder c) hc) False.elim
      hwalked⟩
  | setPicFlowEnd cells =>
    cases cells with
    | nil =>
      rw [hpc] at hwalked
      rw [State.estimate, hpc]
      refine ⟨nodes, pre, h.move rfl rfl (fun c _ => ?_) False.elim hwalked⟩
      rw [hpc]
      exact List.not_mem_nil
    | cons c cells =>
      have := h.setPicFlowEnd hpc
      rw [State.estimate, hpc]
      exact ⟨nodes, _, this⟩
  | copyTaille =>
    rw [hpc] at hwalked
    have htaken : ∀ c, s.pc.Taken c := fun c => by rw [hpc]; trivial
    rw [State.estimate, hpc]
    -- from here on a size of 0 says that all snapshots are empty
    refine ⟨nodes, pre, h.move rfl rfl (fun c _ => htaken c)
      (fun _ hzero => h.pre_eq_nil htaken hzero) ⟨nodup_cellsInOrder, fun c => ?_⟩⟩
    rw [WalkedBut, if_pos (mem_cellsInOrder c)]
    exact hwalked c
  | picFlowEndTest cells =>
    cases cells with
    | nil =>
      have hsized := h.sized (by rw [hpc]; trivial)
      have htaken : ∀ c, s.pc.Taken c := fun c => by rw [hpc]; trivial
      rw [hpc] at hwalked
      rw [State.estimate, hpc]
      exact ⟨nodes, pre, h.move rfl rfl (fun c _ => htaken c) (fun _ => hsized)
        fun c => (hwalked.2 c).trans (if_neg List.not_mem_nil)⟩
    | cons c cells =>
      have := h.picFlowEndTest hpc
      rw [State.estimate, hpc]
      exact ⟨nodes, pre, this⟩
  | visit p c cells => exact (h.visit hpc).imp (fun _ => False.elim) fun s' h' => ⟨nodes, pre, h'⟩
  | advance p c cells =>
    exact (h.advance hpc).imp (fun _ => False.elim) fun s' h' => ⟨nodes, pre, h'⟩
  | sizevalTest =>
    have hsized := h.sized (by rw [hpc]; trivial)
    have htaken : ∀ c, s.pc.Taken c := fun c => by rw [hpc]; trivial
    rw [hpc] at hwalked
    rw [State.estimate, hpc]
    by_cases hzero : s.sizeval = 0
    · simp only [if_neg (not_not_intro hzero)]
      refine ⟨nodes, pre, h.move rfl rfl (fun _ => False.elim) False.elim fun c => ?_⟩
      rw [hwalked c, hsized hzero c, List.map_nil]
    · simp only [if_pos hzero]
      exact ⟨nodes, pre, h.move rfl rfl (fun c _ => htaken c) False.elim hwalked⟩
  | divide =>
    have htaken : ∀ c, s.pc.Taken c := fun c => by rw [hpc]; trivial
    rw [hpc] at hwalked
    rw [State.estimate, hpc]
    -- the division by `local_compteur` is the only step that may fail
    by_cases hzero : s.localCompteur = 0
    · simp only [if_pos hzero]
      rfl
    · simp only [if_neg hzero]
      exact ⟨nodes, pre, h.move rfl rfl (fun c _ => htaken c) False.elim hwalked⟩
  | libererFlow =>
    exact (h.libererFlow hpc).imp (fun _ => False.elim) fun s' ⟨nodes', h'⟩ => ⟨nodes', pre, h'⟩

/-- Every step of the threads keeps the invariant. -/
theorem State.Inv.step (h : s.Inv nodes pre) (threshold : Int32) (a : Action)
    (henabled : s.Enabled a) :
    Ends (· = .division) (fun s' => ∃ nodes' pre', s'.Inv nodes' pre') (s.step threshold a) := by
  cases a with
  | addFlow ff p =>
    exact (h.addFlow henabled.1 henabled.2).imp (fun _ => False.elim)
      fun s' ⟨nodes', h'⟩ => ⟨nodes', pre, h'⟩
  | tick => exact ⟨nodes, pre, h.tick⟩
  | estimate => exact h.estimate

theorem WalkedBut.front {cells : List Cell} {walked : Cell → List Report} {c : Cell}
    (h : WalkedBut cells pre walked c) (hpre : pre c <+: nodes c) :
    walked c <+: (nodes c).map Prod.snd := by
  rw [WalkedBut] at h
  rw [h]
  split
  · exact List.nil_prefix
  · exact hpre.map _

/-- What the current round has walked over is at the front of the list. -/
theorem State.Inv.walked_front (h : s.Inv nodes pre) (c : Cell) :
    s.history.walked c <+: (nodes c).map Prod.snd := by
  have hwalked := h.walked
  have hnone : (∀ c, s.history.walked c = []) → s.history.walked c <+: (nodes c).map Prod.snd :=
    fun hnil => hnil c ▸ List.nil_prefix
  have hpre : s.pc.Taken c → pre c <+: nodes c := fun hc => (h.taken c hc).1
  have hall : s.pc.Taken c → (∀ c, s.history.walked c = (pre c).map Prod.snd) →
      s.history.walked c <+: (nodes c).map Prod.snd := fun hc heq => heq c ▸ (hpre hc).map _
  have hdone : s.pc.Taken c → ∀ done rest, pre c = done ++ rest →
      s.history.walked c = done.map Prod.snd → s.history.walked c <+: (nodes c).map Prod.snd :=
    fun hc done rest hsplit heq =>
      heq ▸ ((hsplit ▸ List.prefix_append done rest).trans (hpre hc)).map _
  -- what has been walked is a part of the snapshot, which is the front of the list
  cases hpc : s.pc with
  | picFlowEndTest cells =>
    rw [hpc] at hwalked
    exact (hwalked.2 c).front (hpre (by rw [hpc]; trivial))
  | visit p d cells =>
    rw [hpc] at hwalked
    obtain ⟨-, hothers, done, r, rest, hsplit, hd⟩ := hwalked
    by_cases hcd : c = d
    · subst hcd
      exact hdone (by rw [hpc]; trivial) done _ hsplit hd
    · exact (hothers c hcd).front (hpre (by rw [hpc]; trivial))
  | advance p d cells =>
    rw [hpc] at hwalked
    obtain ⟨-, hothers, done, r, rest, -, hsplit, hd⟩ := hwalked
    by_cases hcd : c = d
    · subst hcd
      exact hdone (by rw [hpc]; trivial) (done ++ [(p, r)]) rest (by simp [hsplit]) hd
    · exact (hothers c hcd).front (hpre (by rw [hpc]; trivial))
  | sizevalTest | divide | libererFlow =>
    rw [hpc] at hwalked
    exact hall (by rw [hpc]; trivial) hwalked
  | _ =>
    rw [hpc] at hwalked
    exact hnone hwalked

/-- What the lists hold is accounted for. -/
structure State.Accounted (s : State) (nodes : Nodes) : Prop where
  /-- The reports that the rounds have walked over, followed by those in the list, have been
  added. -/
  reports : ∀ c, s.history.rounds.flatMap (· c) ++ (nodes c).map Prod.snd = s.history.added c
  /-- What the current round has walked over is at the front of the list. -/
  walked : ∀ c, s.history.walked c <+: (nodes c).map Prod.snd
  flowList : ∀ c, Segment s.lists.heap (s.lists.chemin c).flowList (nodes c) nul
  /-- `AddFlow` is the last node. -/
  addFlow : ∀ c, (s.lists.chemin c).addFlow = lastAddress nul (nodes c)
  addFlow_eq_nul : ∀ c, (s.lists.chemin c).addFlow = nul ↔ nodes c = []
  taille : ∀ c, (s.lists.chemin c).taille.toNat = (nodes c).length
  total : s.lists.taille.toNat = ∑ c, (nodes c).length

theorem State.Inv.accounted (h : s.Inv nodes pre) : s.Accounted nodes where
  reports := h.added
  walked := h.walked_front
  flowList := h.lists.segment
  addFlow := h.lists.addFlow
  addFlow_eq_nul c := by
    have hsegment : Segment s.lists.heap (s.lists.chemin c).flowList (nodes c ++ []) nul := by
      rw [List.append_nil]
      exact h.lists.segment c
    rw [h.lists.addFlow c]
    exact hsegment.lastAddress_eq_iff h.lists.null
  taille c := by
    have hle := Finset.single_le_sum (f := fun c => (nodes c).length) (fun _ _ => Nat.zero_le _)
      (Finset.mem_univ c)
    rw [h.lists.taille c,
      UInt64.toNat_ofNat_of_lt' (Nat.lt_of_le_of_lt hle h.lists.sum_length_lt)]
  total := by rw [h.lists.total, UInt64.toNat_ofNat_of_lt' h.lists.sum_length_lt]

end Estimation
