import Mathlib.Algebra.Order.BigOperators.Group.Finset
import NetworkMonitoring.Foundations.ErrorLoops
import NetworkMonitoring.Foundations.LinkedLists
import NetworkMonitoring.Estimation.Grouping

/-!
# Estimation — the report lists

Each AS pair has a singly linked list of reports. `Add_flow` appends a report to one of them, and
`liberer_flow` frees the nodes of every list up to `PicFlow_End`. The nodes of all lists share one
heap, `malloc` takes any free address of it.

`FlowLists.Holds` says which nodes the lists have: an invariant of the pointers and of the counters
`taille`. `Holds.addFlow` and `Holds.libererFlow` are what the two functions do to these nodes.
-/

namespace Estimation

open LinkedLists ErrorLoops

/-- What a thread crashes with. -/
inductive Crash where
  /-- A pointer to no node is followed. -/
  | pointer
  /-- An integer is divided by 0. -/
  | division
  /-- A loop goes round in a circle. -/
  | endless
  deriving DecidableEq

abbrev Adresse := UInt64

/-- NULL. -/
def nul : Adresse := 0

/-- The list of `struct un_chemin`. -/
structure UnChemin where
  flowList : Adresse := nul
  addFlow : Adresse := nul
  picFlowEnd : Adresse := nul
  taille : UInt64 := 0
  deriving DecidableEq

/-- `chemin` and `taille`, with the nodes that have been allocated. -/
structure FlowLists where
  heap : Heap Adresse Report := fun _ => none
  chemin : Cell → UnChemin := fun _ => {}
  taille : UInt64 := 0

/-! ## The functions -/

/-- The index that an AS number stands for. -/
def asIndex (as : UInt32) : Option (Fin nombreAs) :=
  let i := (as - 1).toBitVec.toInt
  if h : 0 ≤ i ∧ i < nombreAs then some ⟨i.toNat, by omega⟩ else none

/-- The list that a report belongs to. -/
def Report.cell (ff : Report) : Option Cell := do
  let as1 ← asIndex ff.srcAs
  let as2 ← asIndex ff.dstAs
  return (as1, as2)

def FlowLists.deref (l : FlowLists) (p : Adresse) : Except Crash (Node Adresse Report) :=
  match l.heap p with
  | some n => .ok n
  | none => .error .pointer

def FlowLists.setChemin (l : FlowLists) (c : Cell) (ch : UnChemin) : FlowLists :=
  { l with chemin := Function.update l.chemin c ch }

/-- A new node with `next` NULL. -/
def FlowLists.malloc (l : FlowLists) (pNouveau : Adresse) (ff : Report) : FlowLists :=
  { l with heap := Function.update l.heap pNouveau (some ⟨ff, nul⟩) }

/-- The link from the last node to a new one. -/
def FlowLists.setNext (l : FlowLists) (p next : Adresse) : Except Crash FlowLists := do
  let n ← l.deref p
  return { l with heap := Function.update l.heap p (some { n with next := next }) }

/-- `Add_flow` for a report of the AS pair `c`; the node is allocated at `pNouveau`. -/
def FlowLists.addFlow (l : FlowLists) (c : Cell) (ff : Report) (pNouveau : Adresse) :
    Except Crash FlowLists := do
  let ch := l.chemin c
  let ch' := { ch with addFlow := pNouveau, taille := ch.taille + 1 }
  if ch.addFlow ≠ nul then
    let l ← (l.malloc pNouveau ff).setNext ch.addFlow pNouveau
    return { l.setChemin c ch' with taille := l.taille + 1 }
  else
    return { (l.malloc pNouveau ff).setChemin c { ch' with flowList := pNouveau } with
      taille := l.taille + 1 }

/-- A node is freed, and counted off. -/
def FlowLists.freeNode (l : FlowLists) (c : Cell) (p : Adresse) : Except Crash FlowLists := do
  let _ ← l.deref p
  let ch := l.chemin c
  return { l.setChemin c { ch with taille := ch.taille - 1 } with
    heap := Function.update l.heap p none, taille := l.taille - 1 }

/-- The loop of `liberer`, which frees the nodes in front of `PicFlow_End`. -/
def FlowLists.freeUntil (c : Cell) : ℕ → Adresse → FlowLists → Except Crash (Adresse × FlowLists)
  | 0, _, _ => .error .endless
  | fuel + 1, pCourant, l =>
    if pCourant = (l.chemin c).picFlowEnd then .ok (pCourant, l)
    else do
      let n ← l.deref pCourant
      if n.next = nul then return (pCourant, l)
      else
        let l ← (l.setChemin c { l.chemin c with flowList := n.next }).freeNode c pCourant
        freeUntil c fuel (l.chemin c).flowList l

/-- `liberer`. -/
def FlowLists.liberer (l : FlowLists) (c : Cell) : Except Crash FlowLists :=
  if (l.chemin c).flowList ≠ nul ∧ (l.chemin c).picFlowEnd ≠ nul then do
    let (pCourant, l) ← l.freeUntil c UInt64.size (l.chemin c).flowList
    let ch := l.chemin c
    let n ← l.deref ch.picFlowEnd
    let ch' := if n.next ≠ nul then { ch with flowList := n.next }
      else { ch with addFlow := nul, flowList := nul, picFlowEnd := nul }
    (l.setChemin c ch').freeNode c pCourant
  else .ok l

/-- `liberer_flow`. -/
def FlowLists.libererFlow (l : FlowLists) : Except Crash FlowLists :=
  cellsInOrder.foldlM FlowLists.liberer l

theorem asIndex_eq_some {as : UInt32} {i : Fin nombreAs} (h : asIndex as = some i) :
    as = UInt32.ofNat (i + 1) := by
  rw [asIndex] at h
  split at h
  · next hi =>
    obtain rfl := Option.some.inj h
    -- the number is not negative as an `int`
    have hnat : (as - 1).toBitVec.toInt = (as - 1).toNat := BitVec.toInt_eq_toNat_of_lt (by
      have hcond := BitVec.toInt_eq_toNat_cond (as - 1).toBitVec
      have hlt := (as - 1).toBitVec.isLt
      grind)
    simp only [hnat, Int.toNat_natCast, UInt32.ofNat_add, UInt32.ofNat_toNat]
    exact (UInt32.sub_add_cancel as 1).symm
  · cases h

/-- A report is in the list of its AS pair. -/
theorem Report.cell_eq_some {ff : Report} {c : Cell} (h : ff.cell = some c) :
    ff.srcAs = c.srcAs ∧ ff.dstAs = c.dstAs := by
  rw [Report.cell] at h
  obtain ⟨as1, h1, h⟩ := Option.bind_eq_some_iff.mp h
  obtain ⟨as2, h2, h⟩ := Option.bind_eq_some_iff.mp h
  obtain rfl := Option.some.inj h
  exact ⟨asIndex_eq_some h1, asIndex_eq_some h2⟩

/-! ## The nodes of the lists -/

/-- The nodes of each list, with their addresses and reports. -/
abbrev Nodes := Cell → List (Adresse × Report)

/-- The lists have the nodes `nodes`. -/
structure FlowLists.Holds (l : FlowLists) (nodes : Nodes) : Prop where
  null : l.heap nul = none
  segment : ∀ c, Segment l.heap (l.chemin c).flowList (nodes c) nul
  addFlow : ∀ c, (l.chemin c).addFlow = lastAddress nul (nodes c)
  taille : ∀ c, (l.chemin c).taille = UInt64.ofNat (nodes c).length
  total : l.taille = UInt64.ofNat (∑ c, (nodes c).length)
  nodup : ∀ c, ((nodes c).map Prod.fst).Nodup
  disjoint : ∀ c d, d ≠ c → ∀ a ∈ (nodes c).map Prod.fst, a ∉ (nodes d).map Prod.fst

theorem FlowLists.holds_empty : FlowLists.Holds {} fun _ => [] where
  null := rfl
  segment _ := rfl
  addFlow _ := rfl
  taille _ := rfl
  total := by
    rw [List.length_nil, Finset.sum_const_zero]
    rfl
  nodup _ := List.nodup_nil
  disjoint _ _ _ _ ha := absurd ha List.not_mem_nil

/-- The number of nodes when one list changes. -/
theorem sum_length_update (nodes : Nodes) (c : Cell) (xs : List (Adresse × Report)) :
    ∑ d, (Function.update nodes c xs d).length + (nodes c).length =
      ∑ d, (nodes d).length + xs.length := by
  have hrest : ∑ d ∈ Finset.univ.erase c, (Function.update nodes c xs d).length =
      ∑ d ∈ Finset.univ.erase c, (nodes d).length :=
    Finset.sum_congr rfl fun d hd => by rw [Function.update_of_ne (Finset.ne_of_mem_erase hd)]
  rw [← Finset.sum_erase_add _ _ (Finset.mem_univ c), hrest, Function.update_self,
    ← Finset.sum_erase_add (a := c) _ (fun d => (nodes d).length) (Finset.mem_univ c)]
  omega

variable {l l' : FlowLists} {nodes : Nodes} {c : Cell}

/-- The addresses are different and not NULL, so the counters do not overflow. -/
theorem FlowLists.Holds.sum_length_lt (h : l.Holds nodes) :
    ∑ c, (nodes c).length < UInt64.size := by
  let addresses (c : Cell) : Finset ℕ := (((nodes c).map Prod.fst).map UInt64.toNat).toFinset
  have hmem : ∀ c n, n ∈ addresses c ↔ ∃ a ∈ (nodes c).map Prod.fst, a.toNat = n := fun c n => by
    rw [List.mem_toFinset, List.mem_map]
  have hcard : ∀ c, (addresses c).card = (nodes c).length := fun c => by
    rw [List.toFinset_card_of_nodup ((h.nodup c).map fun _ _ => UInt64.toNat_inj.mp),
      List.length_map, List.length_map]
  have hdisjoint : ((Finset.univ : Finset Cell) : Set Cell).PairwiseDisjoint addresses := by
    intro c _ d _ hne
    refine Finset.disjoint_left.mpr fun n hc hd => ?_
    obtain ⟨a, ha, rfl⟩ := (hmem c n).mp hc
    obtain ⟨a', ha', heq⟩ := (hmem d _).mp hd
    exact h.disjoint c d hne.symm a ha (UInt64.toNat_inj.mp heq ▸ ha')
  have hsub : Finset.univ.biUnion addresses ⊆ Finset.Ico 1 UInt64.size := by
    refine Finset.biUnion_subset.mpr fun c _ => Finset.subset_iff.mpr fun n hn => ?_
    obtain ⟨a, ha, rfl⟩ := (hmem c n).mp hn
    refine Finset.mem_Ico.mpr ⟨Nat.one_le_iff_ne_zero.mpr fun hzero => ?_, a.toNat_lt_size⟩
    have hnul : a = nul := UInt64.toNat_inj.mp hzero
    exact (h.segment c).ne_none ha (hnul ▸ h.null)
  calc ∑ c, (nodes c).length = (Finset.univ.biUnion addresses).card := by
        rw [Finset.card_biUnion hdisjoint]
        exact Finset.sum_congr rfl fun c _ => (hcard c).symm
    _ ≤ (Finset.Ico 1 UInt64.size).card := Finset.card_le_card hsub
    _ < UInt64.size := by
        rw [Nat.card_Ico]
        decide

/-- An operation on one list. -/
theorem FlowLists.Holds.change (h : l.Holds nodes) {xs : List (Adresse × Report)}
    (hheap : ∀ d, d ≠ c → ∀ a ∈ (nodes d).map Prod.fst, l'.heap a = l.heap a)
    (hchemin : ∀ d, d ≠ c → l'.chemin d = l.chemin d) (hnull : l'.heap nul = none)
    (hsegment : Segment l'.heap (l'.chemin c).flowList xs nul)
    (haddFlow : (l'.chemin c).addFlow = lastAddress nul xs)
    (htaille : (l'.chemin c).taille = UInt64.ofNat xs.length)
    (htotal : l'.taille = UInt64.ofNat (∑ d, (Function.update nodes c xs d).length))
    (hnodup : (xs.map Prod.fst).Nodup)
    (hdisjoint : ∀ d, d ≠ c → ∀ a ∈ xs.map Prod.fst, a ∉ (nodes d).map Prod.fst) :
    l'.Holds (Function.update nodes c xs) where
  null := hnull
  segment d := by
    by_cases hd : d = c
    · rw [hd, Function.update_self]
      exact hsegment
    · rw [Function.update_of_ne hd, hchemin d hd]
      exact (h.segment d).congr (hheap d hd)
  addFlow d := by
    by_cases hd : d = c
    · rw [hd, Function.update_self]
      exact haddFlow
    · rw [Function.update_of_ne hd, hchemin d hd]
      exact h.addFlow d
  taille d := by
    by_cases hd : d = c
    · rw [hd, Function.update_self]
      exact htaille
    · rw [Function.update_of_ne hd, hchemin d hd]
      exact h.taille d
  total := htotal
  nodup d := by
    by_cases hd : d = c
    · rw [hd, Function.update_self]
      exact hnodup
    · rw [Function.update_of_ne hd]
      exact h.nodup d
  disjoint d e hde a ha := by
    by_cases hd : d = c
    · subst hd
      rw [Function.update_self] at ha
      rw [Function.update_of_ne hde]
      exact hdisjoint e hde a ha
    · rw [Function.update_of_ne hd] at ha
      by_cases he : e = c
      · subst he
        rw [Function.update_self]
        exact fun hmem => hdisjoint d hd a hmem ha
      · rw [Function.update_of_ne he]
        exact h.disjoint d e hde a ha

/-! ## `Add_flow` -/

theorem FlowLists.deref_eq {p : Adresse} {n : Node Adresse Report} (h : l.heap p = some n) :
    l.deref p = .ok n := by
  rw [FlowLists.deref, h]

/-- One more node at the end of a list. -/
theorem FlowLists.Holds.append (h : l.Holds nodes) {p : Adresse} {ff : Report}
    (hfree : l.heap p = none)
    (hheap : ∀ d, d ≠ c → ∀ a ∈ (nodes d).map Prod.fst, l'.heap a = l.heap a)
    (hchemin : ∀ d, d ≠ c → l'.chemin d = l.chemin d) (hnull : l'.heap nul = none)
    (hsegment : Segment l'.heap (l'.chemin c).flowList (nodes c ++ [(p, ff)]) nul)
    (haddFlow : (l'.chemin c).addFlow = p)
    (htaille : (l'.chemin c).taille = (l.chemin c).taille + 1)
    (htotal : l'.taille = l.taille + 1) :
    l'.Holds (Function.update nodes c (nodes c ++ [(p, ff)])) := by
  -- the address is free, so it is in none of the lists
  have hnew : ∀ d, p ∉ (nodes d).map Prod.fst := fun d hmem => (h.segment d).ne_none hmem hfree
  have hadresses : (nodes c ++ [(p, ff)]).map Prod.fst = (nodes c).map Prod.fst ++ [p] :=
    List.map_append
  refine h.change hheap hchemin hnull hsegment ?_ ?_ ?_ ?_ ?_
  · rw [haddFlow, lastAddress_concat]
  · rw [htaille, h.taille, List.length_append, UInt64.ofNat_add]
    rfl
  · have hsum := sum_length_update nodes c (nodes c ++ [(p, ff)])
    rw [List.length_append, List.length_singleton] at hsum
    have hone : ∑ d, (Function.update nodes c (nodes c ++ [(p, ff)]) d).length =
        ∑ d, (nodes d).length + 1 := by omega
    rw [hone, UInt64.ofNat_add, htotal, h.total]
    rfl
  · rw [hadresses]
    refine List.nodup_append.mpr ⟨h.nodup c, List.nodup_singleton _, fun a ha b hb heq => ?_⟩
    rw [List.mem_singleton.mp hb] at heq
    exact hnew c (heq ▸ ha)
  · intro d hd a ha
    rw [hadresses, List.mem_append, List.mem_singleton] at ha
    rcases ha with ha | rfl
    · exact h.disjoint c d hd a ha
    · exact hnew d

/-- `Add_flow` appends a report to its list. -/
theorem FlowLists.Holds.addFlow_ends (h : l.Holds nodes) {p : Adresse} (hp : p ≠ nul)
    (hfree : l.heap p = none) (c : Cell) (ff : Report) :
    Ends (fun _ => False)
      (fun l' => l'.Holds (Function.update nodes c (nodes c ++ [(p, ff)])) ∧
        ∀ d, (l'.chemin d).picFlowEnd = (l.chemin d).picFlowEnd)
      (l.addFlow c ff p) := by
  have hnew : ∀ d, p ∉ (nodes d).map Prod.fst := fun d hmem => (h.segment d).ne_none hmem hfree
  have hpic : ∀ (ch : UnChemin), ch.picFlowEnd = (l.chemin c).picFlowEnd →
      ∀ d, (Function.update l.chemin c ch d).picFlowEnd = (l.chemin d).picFlowEnd := by
    intro ch hch d
    by_cases hd : d = c
    · rw [hd, Function.update_self, hch]
    · rw [Function.update_of_ne hd]
  rw [FlowLists.addFlow]
  rcases List.eq_nil_or_concat (nodes c) with hempty | ⟨pre, ⟨a, b⟩, hnodes⟩
  · -- the list is empty
    have hnul : (l.chemin c).addFlow = nul := by rw [h.addFlow, hempty, lastAddress_nil]
    simp only
    rw [if_neg fun hne => hne hnul]
    refine ⟨h.append hfree ?_ ?_ ?_ ?_ ?_ ?_ rfl, hpic _ rfl⟩
    · exact fun d _ a ha => Function.update_of_ne (fun heq : a = p => hnew d (heq ▸ ha)) _ _
    · exact fun d hd => Function.update_of_ne hd _ _
    · exact (Function.update_of_ne hp.symm _ _).trans h.null
    · rw [hempty]
      simp only [FlowLists.setChemin, FlowLists.malloc, Function.update_self]
      exact ⟨rfl, nul, Function.update_self .., rfl⟩
    · simp only [FlowLists.setChemin, Function.update_self]
    · simp only [FlowLists.setChemin, Function.update_self]
  · -- the last node gets the new one as its `next`
    rw [List.concat_eq_append] at hnodes
    have hlast : (l.chemin c).addFlow = a := by rw [h.addFlow, hnodes, lastAddress_concat]
    have hsegment := h.segment c
    rw [hnodes] at hsegment
    obtain ⟨n, hn, -⟩ := hsegment.inside
    have ha : a ∈ (nodes c).map Prod.fst := by
      rw [hnodes, List.map_append]
      exact List.mem_append_right _ List.mem_cons_self
    have hap : a ≠ p := fun heq => hnew c (heq ▸ ha)
    have hderef : (l.malloc p ff).deref a = .ok ⟨b, n⟩ :=
      FlowLists.deref_eq ((Function.update_of_ne hap _ _).trans hn)
    have hset : (l.malloc p ff).setNext a p = .ok { l with
        heap := Function.update (Function.update l.heap a (some ⟨b, p⟩)) p (some ⟨ff, nul⟩) } := by
      rw [FlowLists.setNext, hderef, ok_bind, Function.update_comm hap]
      rfl
    have hane : a ≠ nul := fun heq => hsegment.ne_none (hnodes ▸ ha) (heq ▸ h.null)
    simp only [hlast]
    rw [if_pos hane, hset, ok_bind]
    refine ⟨h.append hfree ?_ ?_ ?_ ?_ ?_ ?_ rfl, hpic _ rfl⟩
    · intro d hd a' ha'
      have hne : a' ≠ p := fun heq => hnew d (heq ▸ ha')
      have hne' : a' ≠ a := fun heq => h.disjoint d c hd.symm a' ha' (heq ▸ ha)
      exact (Function.update_of_ne hne _ _).trans (Function.update_of_ne hne' _ _)
    · exact fun d hd => Function.update_of_ne hd _ _
    · exact ((Function.update_of_ne hp.symm _ _).trans (Function.update_of_ne hane.symm _ _)).trans
        h.null
    · have hnodup := h.nodup c
      rw [hnodes] at hnodup ⊢
      simp only [FlowLists.setChemin, Function.update_self]
      exact hsegment.concat hnodup hfree ff
    · simp only [FlowLists.setChemin, Function.update_self]
    · simp only [FlowLists.setChemin, Function.update_self]

/-! ## `liberer_flow` -/

/-- The first node of a list is freed, when the pointers of the list are set to the rest of it. -/
theorem FlowLists.Holds.freeHead (h : l.Holds nodes) {a : Adresse} {b : Report}
    {rest : List (Adresse × Report)} (hnodes : nodes c = (a, b) :: rest) (ch : UnChemin)
    (hflow : ∀ n, l.heap a = some n → ch.flowList = n.next)
    (hadd : ch.addFlow = lastAddress nul rest) (htaille : ch.taille = (l.chemin c).taille) :
    Ends (fun _ => False)
      (fun l' => l'.Holds (Function.update nodes c rest) ∧
        l'.chemin = Function.update l.chemin c { ch with taille := ch.taille - 1 })
      ((l.setChemin c ch).freeNode c a) := by
  have hsegment := h.segment c
  rw [hnodes] at hsegment
  -- the first node holds `b`, and the rest of the list begins at its link `n`
  obtain ⟨-, n, hn, hrest⟩ := segment_cons.mp hsegment
  have hnodup := h.nodup c
  rw [hnodes, List.map_cons] at hnodup
  have ha : a ∈ (nodes c).map Prod.fst := by
    rw [hnodes]
    exact List.mem_cons_self
  have hderef : (l.setChemin c ch).deref a = .ok ⟨b, n⟩ := FlowLists.deref_eq hn
  have hcell : (l.setChemin c ch).chemin c = ch := Function.update_self ..
  rw [FlowLists.freeNode, hderef, ok_bind, hcell]
  have hchemin : Function.update (l.setChemin c ch).chemin c { ch with taille := ch.taille - 1 } =
      Function.update l.chemin c { ch with taille := ch.taille - 1 } :=
    Function.update_idem ..
  -- the node that is freed is in no other list, nor in the rest of its own
  refine ⟨h.change ?_ ?_ ?_ ?_ ?_ ?_ ?_ (List.nodup_cons.mp hnodup).2 ?_, hchemin⟩
  · intro d hd a' ha'
    exact Function.update_of_ne (fun heq : a' = a => h.disjoint c d hd a ha (heq ▸ ha')) _ _
  · intro d hd
    exact (congrFun hchemin d).trans (Function.update_of_ne hd _ _)
  · show Function.update l.heap a none nul = none
    rw [Function.update_apply]
    split
    · rfl
    · exact h.null
  · simp only [FlowLists.setChemin, Function.update_self]
    rw [hflow _ hn]
    exact hrest.update (List.nodup_cons.mp hnodup).1 none
  · simp only [FlowLists.setChemin, Function.update_self]
    exact hadd
  · simp only [FlowLists.setChemin, Function.update_self]
    rw [htaille, h.taille, hnodes, List.length_cons, UInt64.ofNat_add]
    exact UInt64.add_sub_cancel ..
  · have hsum := sum_length_update nodes c rest
    rw [hnodes, List.length_cons] at hsum
    have hone : ∑ d, (nodes d).length = ∑ d, (Function.update nodes c rest d).length + 1 := by
      omega
    show l.taille - 1 = _
    rw [h.total, hone, UInt64.ofNat_add]
    exact UInt64.add_sub_cancel ..
  · intro d hd a' ha'
    refine h.disjoint c d hd a' ?_
    rw [hnodes]
    exact List.mem_cons_of_mem _ ha'

/-- The loop of `liberer` frees the nodes in front of `PicFlow_End`. -/
theorem FlowLists.Holds.freeUntil_ends (h : l.Holds nodes) {e : Adresse} {r : Report}
    {pre post : List (Adresse × Report)} (hnodes : nodes c = pre ++ (e, r) :: post)
    (hend : (l.chemin c).picFlowEnd = e) {fuel : ℕ} (hfuel : pre.length < fuel) :
    Ends (fun _ => False)
      (fun s => s.1 = e ∧ s.2.Holds (Function.update nodes c ((e, r) :: post)) ∧
        (s.2.chemin c).picFlowEnd = e ∧ ∀ d, d ≠ c → s.2.chemin d = l.chemin d)
      (l.freeUntil c fuel (l.chemin c).flowList) := by
  induction pre generalizing l nodes fuel with
  | nil =>
    obtain ⟨fuel, rfl⟩ := Nat.exists_eq_succ_of_ne_zero (Nat.ne_of_gt hfuel)
    have hflow : (l.chemin c).flowList = e := by
      have hsegment := h.segment c
      rw [hnodes] at hsegment
      exact hsegment.start
    -- the list begins at `PicFlow_End`
    rw [FlowLists.freeUntil, if_pos (hflow.trans hend.symm)]
    refine ⟨hflow, ?_, hend, fun _ _ => rfl⟩
    rw [← List.nil_append ((e, r) :: post), ← hnodes, Function.update_eq_self]
    exact h
  | cons x pre ih =>
    obtain ⟨a, b⟩ := x
    obtain ⟨fuel, rfl⟩ := Nat.exists_eq_succ_of_ne_zero (Nat.ne_of_gt (Nat.zero_lt_of_lt hfuel))
    have hsegment := h.segment c
    rw [hnodes, List.cons_append] at hsegment
    obtain ⟨hflow, n, hn, hrest⟩ := segment_cons.mp hsegment
    have hnodup := h.nodup c
    rw [hnodes, List.cons_append, List.map_cons] at hnodup
    -- the addresses differ, so the loop goes on at a node in front of it
    have hae : a ≠ (l.chemin c).picFlowEnd := by
      rw [hend]
      rintro rfl
      exact (List.nodup_cons.mp hnodup).1 (by simp)
    have hne : pre ++ (e, r) :: post ≠ [] :=
      List.append_ne_nil_of_right_ne_nil _ (List.cons_ne_nil _ _)
    have hadd : (l.chemin c).addFlow = lastAddress nul (pre ++ (e, r) :: post) := by
      rw [h.addFlow, hnodes, List.cons_append, lastAddress_cons_of_ne_nil nul hne]
    -- there is a node behind, so the branch for the last one is not taken
    have hnext : n ≠ nul := fun heq => hne ((hrest.start_eq_iff h.null).mp heq)
    rw [FlowLists.freeUntil, hflow, if_neg hae, FlowLists.deref_eq hn, ok_bind]
    simp only
    rw [if_neg hnext]
    refine (h.freeHead hnodes { l.chemin c with flowList := n } ?_ ?_ rfl).bind
      fun l' ⟨hholds, hchemin⟩ => ?_
    · intro n' hn'
      obtain rfl := Option.some.inj (hn.symm.trans hn')
      rfl
    · exact hadd
    · have hpic : (l'.chemin c).picFlowEnd = e := by
        rw [hchemin, Function.update_self]
        exact hend
      refine (ih hholds (Function.update_self ..) hpic ?_).imp (fun _ => id) fun s hs => ?_
      · rw [List.length_cons] at hfuel
        omega
      · rw [Function.update_idem] at hs
        refine ⟨hs.1, hs.2.1, hs.2.2.1, fun d hd => (hs.2.2.2 d hd).trans ?_⟩
        rw [hchemin, Function.update_of_ne hd]

/-- `liberer` frees the nodes up to `PicFlow_End`. -/
theorem FlowLists.Holds.liberer_ends (h : l.Holds nodes) {pre post : List (Adresse × Report)}
    (hnodes : nodes c = pre ++ post) (hend : (l.chemin c).picFlowEnd = lastAddress nul pre) :
    Ends (fun _ => False)
      (fun l' => l'.Holds (Function.update nodes c post) ∧
        ∀ d, d ≠ c → l'.chemin d = l.chemin d)
      (l.liberer c) := by
  rw [FlowLists.liberer]
  rcases List.eq_nil_or_concat pre with rfl | ⟨pre, ⟨e, r⟩, rfl⟩
  · -- the snapshot was empty
    rw [lastAddress_nil] at hend
    rw [if_neg fun hne => hne.2 hend]
    refine ⟨?_, fun _ _ => rfl⟩
    rw [← List.nil_append post, ← hnodes, Function.update_eq_self]
    exact h
  · rw [List.concat_eq_append] at hnodes hend
    rw [lastAddress_concat] at hend
    rw [List.append_assoc, List.singleton_append] at hnodes
    have hmem : e ∈ (nodes c).map Prod.fst := by simp [hnodes]
    have hene : e ≠ nul := fun heq => (h.segment c).ne_none hmem (heq ▸ h.null)
    have hflow : (l.chemin c).flowList ≠ nul := fun heq => by
      have hempty := ((h.segment c).start_eq_iff h.null).mp heq
      rw [hempty] at hmem
      cases hmem
    have hlength : pre.length < UInt64.size := by
      have hle := Finset.single_le_sum (f := fun c => (nodes c).length) (fun _ _ => Nat.zero_le _)
        (Finset.mem_univ c)
      have hlt := h.sum_length_lt
      simp only [hnodes, List.length_append] at hle
      omega
    rw [if_pos ⟨hflow, by rw [hend]; exact hene⟩]
    -- the loop leaves the node of `PicFlow_End`, which is freed behind it
    refine (h.freeUntil_ends hnodes hend hlength).bind fun ⟨pCourant, l'⟩ hs => ?_
    obtain ⟨rfl, hholds, hpic, hother⟩ := hs
    simp only at hholds hpic hother ⊢
    have hlist := Function.update_self c ((pCourant, r) :: post) nodes
    have hsegment := hholds.segment c
    rw [hlist] at hsegment
    obtain ⟨-, n, hn, hrest⟩ := segment_cons.mp hsegment
    rw [hpic, FlowLists.deref_eq hn, ok_bind]
    simp only
    have hfree : ∀ ch : UnChemin, ch.flowList = n → ch.addFlow = lastAddress nul post →
        ch.taille = (l'.chemin c).taille →
        Ends (fun _ => False)
          (fun l'' => l''.Holds (Function.update nodes c post) ∧
            ∀ d, d ≠ c → l''.chemin d = l.chemin d)
          ((l'.setChemin c ch).freeNode c pCourant) := by
      intro ch hch hadd htaille
      refine (hholds.freeHead hlist ch (fun n' hn' => ?_) hadd htaille).imp (fun _ => id)
        fun l'' ⟨hholds'', hchemin⟩ => ⟨?_, fun d hd => ?_⟩
      · rw [hch, ← Option.some.inj (hn.symm.trans hn')]
      · rwa [Function.update_idem] at hholds''
      · rw [hchemin, Function.update_of_ne hd, hother d hd]
    -- the pointers are cleared if the list is empty then
    by_cases hmore : post = []
    · have hnul : n = nul := (hrest.start_eq_iff hholds.null).mpr hmore
      rw [if_neg fun hne => hne hnul]
      exact hfree _ hnul.symm (by rw [hmore]; rfl) rfl
    · have hnul : n ≠ nul := fun heq => hmore ((hrest.start_eq_iff hholds.null).mp heq)
      rw [if_pos hnul]
      refine hfree _ rfl ?_ rfl
      show (l'.chemin c).addFlow = _
      rw [hholds.addFlow, hlist, lastAddress_cons_of_ne_nil nul hmore]

/-- `liberer_flow` frees the nodes of all lists up to `PicFlow_End`. -/
theorem FlowLists.Holds.libererFlow_ends (h : l.Holds nodes) {pre post : Nodes}
    (hnodes : ∀ c, nodes c = pre c ++ post c)
    (hend : ∀ c, (l.chemin c).picFlowEnd = lastAddress nul (pre c)) :
    Ends (fun _ => False) (fun l' => l'.Holds post) l.libererFlow := by
  refine (Ends.foldlM (I := fun done l' =>
    l'.Holds (fun c => if c ∈ done then post c else nodes c) ∧
      ∀ c, c ∉ done → l'.chemin c = l.chemin c) ?_ ?_).imp (fun _ => id) fun l' hl' => ?_
  · intro done c rest l' heq ⟨hholds, hsame⟩
    have hnew : c ∉ done := fun hmem =>
      (List.nodup_append.mp (heq ▸ nodup_cellsInOrder)).2.2 c hmem c List.mem_cons_self rfl
    have hdone : Function.update (fun d => if d ∈ done then post d else nodes d) c (post c) =
        fun d => if d ∈ done ++ [c] then post d else nodes d := by
      funext d
      by_cases hd : d = c
      · simp [hd]
      · simp [hd]
    have hsplit : (fun d => if d ∈ done then post d else nodes d) c = pre c ++ post c := by
      simp only [if_neg hnew]
      exact hnodes c
    refine (hholds.liberer_ends hsplit ?_).imp (fun _ => id)
      fun l'' ⟨hholds', hsame'⟩ => ⟨hdone ▸ hholds', fun d hd => ?_⟩
    · rw [hsame c hnew]
      exact hend c
    · rw [List.mem_append, List.mem_singleton, not_or] at hd
      rw [hsame' d hd.2, hsame d hd.1]
  · exact ⟨by simpa using h, fun _ _ => rfl⟩
  · simpa [mem_cellsInOrder] using hl'.1

end Estimation
