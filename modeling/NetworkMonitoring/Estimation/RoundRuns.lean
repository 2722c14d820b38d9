import NetworkMonitoring.Estimation.Rounds

/-!
# Estimation — the runs of the three threads

## Main results

* `Run.noReportLost`: the reports of an AS pair that the rounds have walked over, followed by those
  in its list, are the reports that have been added. The pointers and counters of the lists are
  right in every state, and no step follows a pointer to no node.
* `Run.division_safe`: `local_compteur` is not 0 at the division by it, provided that no round
  copies `compteur` when it is 0. The overhead can start a round before the timer has counted a
  second, and then the division is one by 0 (`Run.exists_division`).
-/

namespace Estimation

open LinkedLists ErrorLoops

variable {threshold : Int32} {ok : State → Action → Prop} {s s' : State} {nodes pre : Nodes}

/-! ## Every order of steps -/

theorem Run.inv (h : Run threshold ok s) : ∃ nodes pre, s.Inv nodes pre := by
  induction h with
  | start => exact ⟨_, _, State.inv_start⟩
  | step _ a henabled _ hstep ih =>
    obtain ⟨nodes, pre, h⟩ := ih
    have hends := h.step threshold a henabled
    rw [hstep] at hends
    exact hends

/-- The lists that a round walks over are those of a `Snapshot` for each AS pair. -/
theorem Run.exists_snapshots (h : Run threshold ok s) :
    ∃ snapshots : ∀ c, Snapshot c, ∀ c, (snapshots c).reports = s.history.walked c := by
  obtain ⟨nodes, pre, hinv⟩ := h.inv
  have hmem : ∀ c, ∀ r ∈ s.history.walked c, r ∈ s.history.added c := fun c r hr => by
    rw [← hinv.added c]
    exact List.mem_append_right _ ((hinv.walked_front c).subset hr)
  exact ⟨fun c =>
    { reports := s.history.walked c
      srcAs := fun r hr => (hinv.ases c r (hmem c r hr)).1
      dstAs := fun r hr => (hinv.ases c r (hmem c r hr)).2 }, fun _ => rfl⟩

/-! ## A round that nothing interrupts -/

/-- No round copies `compteur` before the timer has counted a second. -/
def CopiesTicked (s : State) (a : Action) : Prop :=
  a = .estimate → s.pc = .copyCompteur → s.compteur ≠ 0

/-- What the loops of a round over the lists leave as it is. -/
structure State.SameShared (s s' : State) : Prop where
  thrd : s'.thrd = s.thrd
  sizeval : s'.sizeval = s.sizeval
  localCompteur : s'.localCompteur = s.localCompteur
  added : s'.history.added = s.history.added
  rounds : s'.history.rounds = s.history.rounds

theorem State.SameShared.trans {s'' : State} (h : s.SameShared s') (h' : s'.SameShared s'') :
    s.SameShared s'' :=
  ⟨h'.thrd.trans h.thrd, h'.sizeval.trans h.sizeval, h'.localCompteur.trans h.localCompteur,
    h'.added.trans h.added, h'.rounds.trans h.rounds⟩

/-- `PicFlow_End` is set for the AS pairs `cells`. -/
def FlowLists.setEnds (cells : List Cell) (l : FlowLists) : FlowLists :=
  cells.foldl (fun l c => l.setChemin c { l.chemin c with picFlowEnd := (l.chemin c).addFlow }) l

@[simp]
theorem FlowLists.heap_setEnds (cells : List Cell) (l : FlowLists) :
    (l.setEnds cells).heap = l.heap := by
  induction cells generalizing l with
  | nil => rfl
  | cons c cells ih => exact ih _

@[simp]
theorem FlowLists.taille_setEnds (cells : List Cell) (l : FlowLists) :
    (l.setEnds cells).taille = l.taille := by
  induction cells generalizing l with
  | nil => rfl
  | cons c cells ih => exact ih _

/-- The ends that are set are those of the lists. -/
theorem FlowLists.picFlowEnd_setEnds {cells : List Cell} {c : Cell} (hc : c ∈ cells)
    (l : FlowLists) : ((l.setEnds cells).chemin c).picFlowEnd =
      ((l.setEnds cells).chemin c).addFlow := by
  -- an end that has been set stays what it is, whatever is set behind it
  have hkeeps : ∀ (cells : List Cell) (l : FlowLists),
      (l.chemin c).picFlowEnd = (l.chemin c).addFlow →
      ((l.setEnds cells).chemin c).picFlowEnd = ((l.setEnds cells).chemin c).addFlow := by
    intro cells
    induction cells with
    | nil => exact fun _ h => h
    | cons d cells ih =>
      refine fun l h => ih _ ?_
      by_cases hcd : c = d
      · subst hcd
        simp [FlowLists.setChemin]
      · simpa [FlowLists.setChemin, hcd] using h
  induction cells generalizing l with
  | nil => cases hc
  | cons d cells ih =>
    rcases List.mem_cons.mp hc with rfl | hc
    · exact hkeeps cells _ (by simp [FlowLists.setChemin])
    · exact ih hc _

/-- `Estimation` takes a step. -/
theorem Run.estimate (h : Run threshold ok s) (hthrd : s.thrd = true) (hok : ok s .estimate)
    (hstep : s.estimate = .ok s') : Run threshold ok s' :=
  h.step .estimate hthrd hok hstep

section

variable (hok : ∀ s, s.pc ≠ .copyCompteur → ok s .estimate)

include hok

/-- `PicFlow_End` is set for all AS pairs. -/
theorem Run.exists_copyTaille {cells : List Cell} (h : Run threshold ok s) (hthrd : s.thrd = true)
    (hpc : s.pc = .setPicFlowEnd cells) :
    ∃ s', Run threshold ok s' ∧ s'.pc = .copyTaille ∧ s.SameShared s' ∧
      s'.lists = s.lists.setEnds cells := by
  have hgo : ok s .estimate := hok s (by rw [hpc]; exact Pc.noConfusion)
  induction cells generalizing s with
  | nil =>
    have hstep : s.estimate = .ok { s with pc := .copyTaille } := by rw [State.estimate, hpc]
    exact ⟨_, h.estimate hthrd hgo hstep, rfl, ⟨rfl, rfl, rfl, rfl, rfl⟩, rfl⟩
  | cons c cells ih =>
    have hstep : s.estimate = .ok { s with
        lists := s.lists.setChemin c
          { s.lists.chemin c with picFlowEnd := (s.lists.chemin c).addFlow }
        pc := .setPicFlowEnd cells } := by rw [State.estimate, hpc]
    obtain ⟨s', hrun, hpc', hsame, hlists⟩ := ih (h.estimate hthrd hgo hstep) hthrd rfl
      (hok _ Pc.noConfusion)
    exact ⟨s', hrun, hpc', ⟨hsame.thrd, hsame.sizeval, hsame.localCompteur, hsame.added,
      hsame.rounds⟩, hlists⟩

/-- The walk over a list comes to `PicFlow_End`. -/
theorem Run.exists_walked {c : Cell} {cells : List Cell} {p : Adresse} {r : Report}
    {done rest : List (Adresse × Report)} (h : Run threshold ok s) (hinv : s.Inv nodes pre)
    (hthrd : s.thrd = true) (hpc : s.pc = .visit p c cells)
    (hpre : pre c = done ++ (p, r) :: rest) :
    ∃ s', Run threshold ok s' ∧ s'.pc = .picFlowEndTest cells ∧ s.SameShared s' ∧
      s'.lists = s.lists := by
  have hgo : ok s .estimate := hok s (by rw [hpc]; exact Pc.noConfusion)
  induction rest generalizing s done p r with
  | nil =>
    have hvisit := hinv.estimate_visit hpc hpre
    rw [if_pos rfl] at hvisit
    exact ⟨_, h.estimate hthrd hgo hvisit, rfl, ⟨rfl, rfl, rfl, rfl, rfl⟩, rfl⟩
  | cons x rest ih =>
    obtain ⟨q, r'⟩ := x
    have hvisit := hinv.estimate_visit hpc hpre
    rw [if_neg (List.cons_ne_nil _ _)] at hvisit
    have hinv₁ := hinv.visit hpc
    rw [hvisit, ends_ok] at hinv₁
    have hrun₁ := h.estimate hthrd hgo hvisit
    have hadvance := hinv₁.estimate_advance rfl hpre
    have hinv₂ := hinv₁.advance rfl
    rw [hadvance, ends_ok] at hinv₂
    have hrun₂ := hrun₁.estimate hthrd (hok _ Pc.noConfusion) hadvance
    have hsplit : pre c = (done ++ [(p, r)]) ++ (q, r') :: rest := by
      rw [hpre, List.append_assoc, List.singleton_append]
    -- two accesses for each node: one reads it, the other follows its link
    obtain ⟨s', hrun, hpc', hsame, hlists⟩ := ih hrun₂ hinv₂ hthrd rfl hsplit
      (hok _ Pc.noConfusion)
    exact ⟨s', hrun, hpc', ⟨hsame.thrd, hsame.sizeval, hsame.localCompteur, hsame.added,
      hsame.rounds⟩, hlists⟩

/-- The walks over the lists come to an end. -/
theorem Run.exists_sizevalTest {cells : List Cell} (h : Run threshold ok s)
    (hthrd : s.thrd = true) (hpc : s.pc = .picFlowEndTest cells) :
    ∃ s', Run threshold ok s' ∧ s'.pc = .sizevalTest ∧ s.SameShared s' ∧ s'.lists = s.lists := by
  have hgo : ok s .estimate := hok s (by rw [hpc]; exact Pc.noConfusion)
  induction cells generalizing s with
  | nil =>
    have hstep : s.estimate = .ok { s with pc := .sizevalTest } := by rw [State.estimate, hpc]
    exact ⟨_, h.estimate hthrd hgo hstep, rfl, ⟨rfl, rfl, rfl, rfl, rfl⟩, rfl⟩
  | cons c cells ih =>
    obtain ⟨nodes, pre, hinv⟩ := h.inv
    have hstep : s.estimate = .ok { s with
        pc := if (s.lists.chemin c).picFlowEnd ≠ nul then
          .visit (s.lists.chemin c).flowList c cells else .picFlowEndTest cells } := by
      rw [State.estimate, hpc]
    have hinv₁ := hinv.picFlowEndTest hpc
    have hrun₁ := h.estimate hthrd hgo hstep
    -- a list with a snapshot is walked first
    by_cases hend : (s.lists.chemin c).picFlowEnd ≠ nul
    · rw [if_pos hend] at hinv₁ hrun₁
      obtain ⟨-, -, done, r, rest, hpre, -⟩ := hinv₁.walked
      obtain ⟨s₂, hrun₂, hpc₂, hsame₂, hlists₂⟩ := hrun₁.exists_walked hok hinv₁ hthrd rfl hpre
      obtain ⟨s', hrun, hpc', hsame, hlists⟩ := ih hrun₂ (hsame₂.thrd.trans hthrd) hpc₂
        (hok _ (by rw [hpc₂]; exact Pc.noConfusion))
      have hsame' := hsame₂.trans hsame
      exact ⟨s', hrun, hpc', ⟨hsame'.thrd, hsame'.sizeval, hsame'.localCompteur, hsame'.added,
        hsame'.rounds⟩, hlists.trans hlists₂⟩
    · rw [if_neg hend] at hrun₁
      obtain ⟨s', hrun, hpc', hsame, hlists⟩ := ih hrun₁ hthrd rfl (hok _ Pc.noConfusion)
      exact ⟨s', hrun, hpc', ⟨hsame.thrd, hsame.sizeval, hsame.localCompteur, hsame.added,
        hsame.rounds⟩, hlists⟩

/-- A round that has copied `compteur` comes to the division, when there are reports. -/
theorem Run.exists_divide (h : Run threshold ok s) (hthrd : s.thrd = true)
    (hpc : s.pc = .copyCompteur) (hcopy : ok s .estimate) (htaille : s.lists.taille ≠ 0) :
    ∃ s', Run threshold ok s' ∧ s'.pc = .divide ∧ s'.thrd = true ∧
      s'.localCompteur = s.compteur ∧ s'.lists = s.lists.setEnds cellsInOrder ∧
      s'.history.added = s.history.added ∧ s'.history.rounds = s.history.rounds := by
  have hcopied := h.estimate hthrd hcopy (by rw [State.estimate, hpc])
  have hset := hcopied.estimate hthrd (hok _ Pc.noConfusion) rfl
  obtain ⟨s₁, hrun₁, hpc₁, hsame₁, hlists₁⟩ := hset.exists_copyTaille hok hthrd rfl
  have hthrd₁ : s₁.thrd = true := hsame₁.thrd.trans hthrd
  have hsized := hrun₁.estimate hthrd₁ (hok _ (by rw [hpc₁]; exact Pc.noConfusion))
    (by rw [State.estimate, hpc₁])
  obtain ⟨s₂, hrun₂, hpc₂, hsame₂, hlists₂⟩ := hsized.exists_sizevalTest hok hthrd₁ rfl
  have hsizeval : s₂.sizeval ≠ 0 := by
    rw [hsame₂.sizeval]
    change s₁.lists.taille ≠ 0
    rw [hlists₁, FlowLists.taille_setEnds]
    exact htaille
  have hstep : s₂.estimate = .ok { s₂ with pc := .divide } := by
    rw [State.estimate, hpc₂]
    simp only
    rw [if_pos hsizeval]
  exact ⟨_, hrun₂.estimate (hsame₂.thrd.trans hthrd₁)
    (hok _ (by rw [hpc₂]; exact Pc.noConfusion)) hstep, rfl, hsame₂.thrd.trans hthrd₁,
    hsame₂.localCompteur.trans hsame₁.localCompteur, hlists₂.trans hlists₁,
    hsame₂.added.trans hsame₁.added, hsame₂.rounds.trans hsame₁.rounds⟩

/-- A round that has come through the division ends. -/
theorem Run.exists_clearOverhead (h : Run threshold ok s) (hthrd : s.thrd = true)
    (hpc : s.pc = .divide) (hne : s.localCompteur ≠ 0) :
    ∃ s', Run threshold ok s' ∧ s'.pc = .clearOverhead ∧
      s'.history.rounds = s.history.rounds ++ [s.history.walked] ∧
      s'.history.added = s.history.added := by
  have hstep : s.estimate = .ok { s with pc := .libererFlow } := by
    rw [State.estimate, hpc]
    simp only
    rw [if_neg hne]
  have hrun := h.estimate hthrd (hok s (by rw [hpc]; exact Pc.noConfusion)) hstep
  obtain ⟨nodes, pre, hinv⟩ := hrun.inv
  obtain ⟨s', hs', -⟩ := (hinv.libererFlow rfl).exists_ok
  obtain ⟨lists, -, hlists⟩ := bind_eq_ok.mp hs'
  obtain rfl := Except.ok.inj hlists
  exact ⟨_, hrun.estimate hthrd (hok _ Pc.noConfusion) hs', rfl, rfl, rfl⟩

/-- An overhead starts a round. -/
theorem Run.exists_copyCompteur (h : Run threshold ok s) (hthrd : s.thrd = true)
    (hpc : s.pc = .compteurTest) (hover : s.overhead = 1) (hearly : ¬60 ≤ s.compteur) :
    ∃ s', Run threshold ok s' ∧ s'.pc = .copyCompteur ∧ s'.thrd = true ∧
      s'.compteur = s.compteur ∧ s'.lists = s.lists ∧ s'.history = s.history := by
  have htest : s.estimate = .ok { s with pc := .overheadTest } := by
    rw [State.estimate, hpc]
    simp only
    rw [if_neg hearly]
  have hrun₁ := h.estimate hthrd (hok s (by rw [hpc]; exact Pc.noConfusion)) htest
  have htest' : State.estimate { s with pc := .overheadTest } =
      .ok { s with pc := .copyOverhead } := by
    simp only [State.estimate]
    rw [if_pos hover]
  have hrun₂ := hrun₁.estimate hthrd (hok _ Pc.noConfusion) htest'
  exact ⟨_, hrun₂.estimate hthrd (hok _ Pc.noConfusion) rfl, rfl, hthrd, rfl, rfl, rfl⟩

end

/-- When nothing has been appended since `PicFlow_End` was set, the round has walked over all
reports of the list. -/
theorem Run.walked_of_divide (h : Run threshold ok s) (hpc : s.pc = .divide) {c : Cell}
    (hend : (s.lists.chemin c).picFlowEnd = (s.lists.chemin c).addFlow) :
    s.history.rounds.flatMap (· c) ++ s.history.walked c = s.history.added c := by
  obtain ⟨nodes, pre, hinv⟩ := h.inv
  obtain ⟨⟨post, hpost⟩, hlast⟩ := hinv.taken c (by rw [hpc]; trivial)
  have hwalked := hinv.walked
  rw [hpc] at hwalked
  have hsegment : Segment s.lists.heap (s.lists.chemin c).flowList (nodes c ++ []) nul := by
    rw [List.append_nil]
    exact hinv.lists.segment c
  have hlast' : lastAddress nul (pre c) = lastAddress nul (nodes c) := by
    rw [← hlast, hend, hinv.lists.addFlow c]
  -- a node behind the last one of the round would be another end of the list
  have hnil : post = [] := by
    rcases List.eq_nil_or_concat post with hnil | ⟨post', x, rfl⟩
    · exact hnil
    · have hnodes : nodes c = (pre c ++ post') ++ [x] := by
        rw [← hpost, List.concat_eq_append, List.append_assoc]
      rcases List.eq_nil_or_concat (pre c) with hpre | ⟨pre', y, hpre⟩
      · rw [hpre, lastAddress_nil] at hlast'
        have hempty := (hsegment.lastAddress_eq_iff hinv.lists.null).mp hlast'.symm
        rw [hempty] at hnodes
        simp at hnodes
      · have hnodup := hinv.lists.nodup c
        rw [hnodes, hpre, List.concat_eq_append, lastAddress_concat, lastAddress_concat] at hlast'
        rw [hnodes, hpre, List.concat_eq_append] at hnodup
        simp only [List.append_assoc, List.map_append, List.map_cons, List.map_nil, hlast',
          List.singleton_append] at hnodup
        exact absurd (by simp) (List.nodup_cons.mp (List.nodup_append.mp hnodup).2.1).1
  rw [← hinv.added c, ← hpost, hnil, List.append_nil, hwalked c]

/-- Two reports start the threads, and are an overhead already for a threshold of 1. -/
theorem State.addFlow_second : ∃ s s', State.addFlow 1 {} (sampleReport 1) 8 = .ok s ∧
    s.lists.heap 16 = none ∧ s.addFlow 1 (sampleReport 2) 16 = .ok s' ∧
    s'.lists.heap 24 = none ∧ s'.thrd = true ∧ s'.pc = .compteurTest ∧ s'.overhead = 1 ∧
    s'.compteur = 0 ∧ s'.lists.taille = 2 ∧
    s'.history.added firstPair = [sampleReport 1, sampleReport 2] ∧ s'.history.rounds = [] :=
  ⟨_, _, rfl, rfl, rfl, rfl, rfl, rfl, rfl, rfl, rfl, rfl, rfl⟩

/-- A round that starts a second after the first reports comes to the division. -/
theorem Run.exists_first_divide (ok : State → Action → Prop)
    (hok : ∀ s a, CopiesTicked s a → ok s a) :
    ∃ s, Run 1 ok s ∧ s.pc = .divide ∧ s.thrd = true ∧ s.localCompteur = 1 ∧
      s.lists.heap 24 = none ∧ s.history.rounds = [] ∧
      s.history.added firstPair = [sampleReport 1, sampleReport 2] ∧
      s.history.walked firstPair = [sampleReport 1, sampleReport 2] := by
  have hgo : ∀ s : State, s.pc ≠ .copyCompteur → ok s .estimate :=
    fun s hne => hok s _ fun _ heq => absurd heq hne
  obtain ⟨s₀, s₁, hfirst, hfree, hadd, hfree', hthrd, hpc, hover, hzero, htaille, hadded, hrounds⟩ :=
    State.addFlow_second
  -- two reports, a second, and then the round
  have hrun₀ : Run 1 ok s₀ := Run.start.step (.addFlow (sampleReport 1) 8) ⟨by decide, rfl⟩
    (hok _ _ Action.noConfusion) hfirst
  have hrun₁ : Run 1 ok s₁ := hrun₀.step (.addFlow (sampleReport 2) 16) ⟨by decide, hfree⟩
    (hok _ _ Action.noConfusion) hadd
  have hticked : Run 1 ok s₁.tick := hrun₁.step .tick hthrd (hok _ _ Action.noConfusion) rfl
  have hone : s₁.tick.compteur = 1 := by
    rw [State.tick, hzero]
    rfl
  obtain ⟨s₂, hrun₂, hpc₂, hthrd₂, hsame₂, hlists₂, hhistory₂⟩ := hticked.exists_copyCompteur hgo
    hthrd hpc hover (by rw [hone]; decide)
  have hlists : s₂.lists = s₁.lists := hlists₂
  -- the lists are not empty, so the round does not start again
  have hne : s₂.lists.taille ≠ 0 := by
    rw [hlists, htaille]
    decide
  obtain ⟨s₃, hrun₃, hpc₃, hthrd₃, hlocal, hlists₃, hadded₃, hrounds₃⟩ :=
    hrun₂.exists_divide hgo hthrd₂ hpc₂ (hok _ _ fun _ _ => by rw [hsame₂, hone]; decide) hne
  have hhistory : s₂.history = s₁.history := hhistory₂
  have hnone : s₃.history.rounds = [] := by rw [hrounds₃, hhistory, hrounds]
  have htwo : s₃.history.added firstPair = [sampleReport 1, sampleReport 2] := by
    rw [hadded₃, hhistory, hadded]
  refine ⟨s₃, hrun₃, hpc₃, hthrd₃, hlocal.trans (hsame₂.trans hone), ?_, hnone, htwo, ?_⟩
  · rw [hlists₃, FlowLists.heap_setEnds, hlists]
    exact hfree'
  · have hwalked := hrun₃.walked_of_divide (c := firstPair) hpc₃ (by
      rw [hlists₃]
      exact FlowLists.picFlowEnd_setEnds (mem_cellsInOrder _) _)
    rw [hnone, htwo] at hwalked
    exact hwalked

/-! ## The reports -/

/-- In every order of the steps, the reports that the rounds have walked over and those in the lists
are the reports that have been added, and the pointers and counters of the lists are right. No step
follows a pointer to no node, and no loop goes round in a circle. -/
theorem Run.noReportLost (h : Run threshold ok s) :
    ∃ nodes, s.Accounted nodes ∧ ∀ a, s.Enabled a →
      s.step threshold a ≠ .error .pointer ∧ s.step threshold a ≠ .error .endless := by
  obtain ⟨nodes, pre, hinv⟩ := h.inv
  refine ⟨nodes, hinv.accounted, fun a ha => ?_⟩
  rcases (hinv.step threshold a ha).cases with ⟨e, he, rfl⟩ | ⟨s', hs', -⟩
  · rw [he]
    exact ⟨by simp, by simp⟩
  · rw [hs']
    exact ⟨ok_ne_error, ok_ne_error⟩

/-- Reports and seconds leave `Estimation` alone. -/
theorem State.addFlow_eq {ff : Report} {p : Adresse} (h : s.addFlow threshold ff p = .ok s') :
    s'.pc = s.pc ∧ s'.localCompteur = s.localCompteur := by
  rw [State.addFlow] at h
  split at h
  · obtain rfl := Except.ok.inj h
    exact ⟨rfl, rfl⟩
  · obtain ⟨_, -, h⟩ := bind_eq_ok.mp h
    obtain rfl := Except.ok.inj h
    exact ⟨rfl, rfl⟩

/-- A report that is appended does not change what has been walked over. -/
theorem State.addFlow_history {ff : Report} {c : Cell} {p : Adresse} (hcell : ff.cell = some c)
    (h : s.addFlow threshold ff p = .ok s') :
    s'.history = { s.history with
      added := Function.update s.history.added c (s.history.added c ++ [ff]) } ∧
      s'.thrd = (s.thrd || (s.lists.chemin c).addFlow == nul) := by
  rw [State.addFlow, hcell] at h
  obtain ⟨_, -, h⟩ := bind_eq_ok.mp h
  obtain rfl := Except.ok.inj h
  exact ⟨rfl, rfl⟩

/-- A run in which a round has walked over two reports and freed them, while a third one was
appended. -/
theorem exists_clearOverhead_accounted :
    ∃ s, Run 1 (fun _ _ => True) s ∧ s.pc = .clearOverhead ∧
      s.history.rounds.flatMap (· firstPair) = [sampleReport 1, sampleReport 2] ∧
      s.history.added firstPair = [sampleReport 1, sampleReport 2, sampleReport 3] ∧
      ∃ nodes, s.Accounted nodes ∧ ∀ a, s.Enabled a →
        s.step 1 a ≠ .error .pointer ∧ s.step 1 a ≠ .error .endless := by
  obtain ⟨s, hrun, hpc, hthrd, hlocal, hfree, hrounds, hadded, hwalked⟩ :=
    Run.exists_first_divide (fun _ _ => True) fun _ _ _ => trivial
  obtain ⟨nodes, pre, hinv⟩ := hrun.inv
  obtain ⟨s₁, hadd, -⟩ : ∃ s₁, s.addFlow 1 (sampleReport 3) 24 = .ok s₁ ∧ _ :=
    (hinv.addFlow (by decide) hfree).exists_ok
  have hrun₁ : Run 1 (fun _ _ => True) s₁ :=
    hrun.step (.addFlow (sampleReport 3) 24) ⟨by decide, hfree⟩ trivial hadd
  obtain ⟨hpc₁, hlocal₁⟩ := State.addFlow_eq hadd
  obtain ⟨hhistory, hthrd₁⟩ := State.addFlow_history (c := firstPair) rfl hadd
  obtain ⟨s₂, hrun₂, hpc₂, hrounds₂, hadded₂⟩ := hrun₁.exists_clearOverhead (fun _ _ => trivial)
    (by rw [hthrd₁, hthrd]; rfl) (hpc₁.trans hpc) (by rw [hlocal₁, hlocal]; decide)
  refine ⟨s₂, hrun₂, hpc₂, ?_, ?_, hrun₂.noReportLost⟩
  · rw [hrounds₂, hhistory]
    simp [hrounds, hwalked]
  · rw [hadded₂, hhistory]
    simp [hadded]

/-! ## The division -/

/-- `local_compteur` has been copied in this round. -/
def Pc.Copied : Pc → Prop
  | .compteurTest | .overheadTest | .copyOverhead | .copyCompteur | .clearOverhead
  | .clearCompteur => False
  | _ => True

/-- Within a round, `local_compteur` is what has been copied from `compteur`. -/
theorem State.estimate_copied (h : s.estimate = .ok s') (hcopied : s'.pc.Copied) :
    s.pc = .copyCompteur ∧ s'.localCompteur = s.compteur ∨
      s.pc.Copied ∧ s'.localCompteur = s.localCompteur := by
  rw [State.estimate] at h
  cases hpc : s.pc with
  | compteurTest =>
    rw [hpc] at h
    obtain rfl := Except.ok.inj h
    simp only at hcopied
    split at hcopied <;> exact hcopied.elim
  | overheadTest =>
    rw [hpc] at h
    obtain rfl := Except.ok.inj h
    simp only at hcopied
    split at hcopied <;> exact hcopied.elim
  | copyOverhead | clearOverhead | clearCompteur =>
    rw [hpc] at h
    obtain rfl := Except.ok.inj h
    exact hcopied.elim
  | copyCompteur =>
    rw [hpc] at h
    obtain rfl := Except.ok.inj h
    exact .inl ⟨rfl, rfl⟩
  | setPicFlowEnd cells | picFlowEndTest cells =>
    rw [hpc] at h
    cases cells <;> obtain rfl := Except.ok.inj h <;> exact .inr ⟨trivial, rfl⟩
  | copyCompteur2 | copyTaille | sizevalTest =>
    rw [hpc] at h
    obtain rfl := Except.ok.inj h
    exact .inr ⟨trivial, rfl⟩
  | visit | advance | libererFlow =>
    rw [hpc] at h
    obtain ⟨_, -, h⟩ := bind_eq_ok.mp h
    obtain rfl := Except.ok.inj h
    exact .inr ⟨trivial, rfl⟩
  | divide =>
    rw [hpc] at h
    simp only at h
    split at h
    · cases h
    · obtain rfl := Except.ok.inj h
      exact .inr ⟨trivial, rfl⟩

/-- What has been copied is not 0. -/
theorem Run.copied_ne_zero (h : Run threshold CopiesTicked s) (hcopied : s.pc.Copied) :
    s.localCompteur ≠ 0 := by
  induction h with
  | start => exact hcopied.elim
  | @step s s' _ a _ hok hstep ih =>
    cases a with
    | addFlow ff p =>
      obtain ⟨hpc, hlocal⟩ := State.addFlow_eq hstep
      rw [hlocal]
      exact ih (hpc ▸ hcopied)
    | tick =>
      obtain rfl := Except.ok.inj hstep
      exact ih hcopied
    | estimate =>
      rcases State.estimate_copied hstep hcopied with ⟨hpc, hlocal⟩ | ⟨hpc, hlocal⟩
      · rw [hlocal]
        exact hok rfl hpc
      · rw [hlocal]
        exact ih hpc

/-- `local_compteur` is not 0 at the division by it, in every order of the steps in which no round
copies `compteur` when it is 0. -/
theorem Run.division_safe (h : Run threshold CopiesTicked s) (hpc : s.pc = .divide) :
    s.localCompteur ≠ 0 :=
  h.copied_ne_zero (by rw [hpc]; trivial)

/-- The first round divides by 1 when it starts after a second. -/
theorem exists_divide_ne_zero :
    ∃ s, Run 1 CopiesTicked s ∧ s.pc = .divide ∧ s.localCompteur ≠ 0 := by
  obtain ⟨s, hrun, hpc, -⟩ := Run.exists_first_divide CopiesTicked fun _ _ => id
  exact ⟨s, hrun, hpc, hrun.division_safe hpc⟩

/-- A round that copies `compteur` when it is 0 divides by 0, when there are reports. -/
theorem Run.exists_division (h : Run threshold ok s)
    (hok : ∀ s, s.pc ≠ .copyCompteur → ok s .estimate) (hthrd : s.thrd = true)
    (hpc : s.pc = .copyCompteur) (hcopy : ok s .estimate) (hzero : s.compteur = 0)
    (htaille : s.lists.taille ≠ 0) :
    ∃ s', Run threshold ok s' ∧ s'.pc = .divide ∧ s'.localCompteur = 0 ∧
      s'.step threshold .estimate = .error .division := by
  obtain ⟨s', hrun, hpc', -, hlocal, -⟩ := h.exists_divide hok hthrd hpc hcopy htaille
  have hdivisor : s'.localCompteur = 0 := hlocal.trans hzero
  refine ⟨s', hrun, hpc', hdivisor, ?_⟩
  rw [State.step, State.estimate, hpc']
  simp only
  rw [if_pos hdivisor]

/-- The first reports are an overhead for a threshold of 1, and start a round before the timer has
counted a second. -/
theorem exists_division_by_zero :
    ∃ s, Run 1 (fun _ _ => True) s ∧ s.pc = .divide ∧ s.localCompteur = 0 ∧
      s.step 1 .estimate = .error .division := by
  have hok : ∀ s : State, s.pc ≠ .copyCompteur → True := fun _ _ => trivial
  obtain ⟨s₀, s, hfirst, hfree, hadd, -, hthrd, hpc, hover, hzero, htaille, -⟩ :=
    State.addFlow_second
  have hrun₀ : Run 1 (fun _ _ => True) s₀ :=
    Run.start.step (.addFlow (sampleReport 1) 8) ⟨by decide, rfl⟩ trivial hfirst
  have hrun : Run 1 (fun _ _ => True) s :=
    hrun₀.step (.addFlow (sampleReport 2) 16) ⟨by decide, hfree⟩ trivial hadd
  obtain ⟨s', hrun', hpc', hthrd', hsame, hlists, -⟩ := hrun.exists_copyCompteur hok hthrd hpc hover
    (by rw [hzero]; decide)
  exact hrun'.exists_division hok hthrd' hpc' trivial (hsame.trans hzero)
    (by rw [hlists, htaille]; decide)

end Estimation
