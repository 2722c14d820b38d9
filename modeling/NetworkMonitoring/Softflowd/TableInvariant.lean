import NetworkMonitoring.Softflowd.CheckExpired

/-!
# softflowd — the invariant of the flow table

`TableInv n ft` relates the two trees of `ft` after the creation of `n` flows: both are sorted,
the expiry events and the flows point at each other one to one, and no two flows share a key, an
address or a sequence number. The counter `num_flows` has 32 bits and `next_flow_seq` has 64, so
the first is the number of flows modulo `2 ^ 32`, and sequence numbers are distinct as long as at
most `2 ^ 64` flows have been created.

The invariant reads a flow only through `Flow.ident`, so an update of the other fields keeps it
(`TableInv.of_ident`). The operations that touch the trees are `createFlow`, `rekey` and
`unlink`; every function of `softflowd.c` is made of these.
-/

namespace Softflowd

open OrderedSet Function

/-! ## What the trees look at -/

/-- What the two trees look at in a flow: its address, its expiry pointer, its sequence number
and its key. -/
def Flow.ident (f : Flow) :
    ℕ × Option ℕ × UInt64 × ℤ × FlowAddr × FlowAddr × UInt8 × UInt16 × UInt16 :=
  (f.ptr, f.expiry, f.flowSeq, f.key)

/-- `flow_compare` through the keys alone. -/
def keyCompare (a b : ℤ × FlowAddr × FlowAddr × UInt8 × UInt16 × UInt16) : Ordering :=
  flowCompare
    { af := a.1, addr := ![a.2.1, a.2.2.1], protocol := a.2.2.2.1
      port := ![a.2.2.2.2.1, a.2.2.2.2.2] }
    { af := b.1, addr := ![b.2.1, b.2.2.1], protocol := b.2.2.2.1
      port := ![b.2.2.2.2.1, b.2.2.2.2.2] }

theorem sorted_flows_iff {l : List Flow} :
    Sorted flowCompare l ↔ (l.map Flow.key).Pairwise fun a b => keyCompare a b = .lt := by
  rw [List.pairwise_map]
  rfl

/-- Sequence numbers are looked up through addresses and sequence numbers alone. -/
theorem flowSeqAt_congr {l l' : List Flow} (h : l'.map Flow.ident = l.map Flow.ident) :
    flowSeqAt l' = flowSeqAt l := by
  ext p
  induction l generalizing l' with
  | nil =>
    obtain rfl : l' = [] := by simpa using h
    rfl
  | cons f l ih =>
    cases l' with
    | nil => simp at h
    | cons f' l' =>
      rw [List.map_cons, List.map_cons, List.cons.injEq] at h
      obtain ⟨hf, hl⟩ := h
      have hptr : f'.ptr = f.ptr := congrArg Prod.fst hf
      have hseq : f'.flowSeq = f.flowSeq := congrArg (fun x => x.2.2.1) hf
      have hrest := ih hl
      unfold flowSeqAt at hrest ⊢
      by_cases hp : f.ptr = p
      · rw [List.find?_cons_of_pos (by simpa [hptr] using hp),
          List.find?_cons_of_pos (by simpa using hp)]
        simp [hseq]
      · rw [List.find?_cons_of_neg (by simpa [hptr] using hp),
          List.find?_cons_of_neg (by simpa using hp)]
        exact hrest

theorem expiryCompare_congr {l l' : List Flow} (h : flowSeqAt l' = flowSeqAt l) :
    expiryCompare l' = expiryCompare l := by
  ext a b
  simp only [expiryCompare, h]

/-! ## The invariant -/

/-- The flow table after the creation of `n` flows. -/
structure TableInv (n : ℕ) (ft : FlowTrack) : Prop where
  sorted_flows : Sorted flowCompare ft.flows
  sorted_expiries : Sorted (expiryCompare ft.flows) ft.expiries
  /-- Flows and expiry events point at each other, one to one. -/
  linked : (ft.expiries.map fun e => (e.flow, some e.ptr)).Perm
    (ft.flows.map fun f => (f.ptr, f.expiry))
  nodup_ptr : (ft.flows.map Flow.ptr).Nodup
  nodup_expiry : (ft.expiries.map Expiry.ptr).Nodup
  ptr_lt : ∀ f ∈ ft.flows, f.ptr < ft.nextPtr
  expiry_lt : ∀ e ∈ ft.expiries, e.ptr < ft.nextPtr
  nodup_seq : (ft.flows.map Flow.flowSeq).Nodup
  seq_lt : ∀ f ∈ ft.flows, ∃ i < n, f.flowSeq = UInt64.ofNat (1 + i)
  nextFlowSeq_eq : ft.nextFlowSeq = UInt64.ofNat (1 + n)
  numFlows_eq : ft.numFlows = UInt32.ofNat ft.flows.length

/-- The flow `createFlow` inserts. -/
def FlowTrack.createdFlow (ft : FlowTrack) (tmp : Flow) : Flow :=
  { tmp with ptr := ft.nextPtr, flowSeq := ft.nextFlowSeq, expiry := some (ft.nextPtr + 1) }

/-- The expiry event `createFlow` inserts. -/
def FlowTrack.createdExpiry (ft : FlowTrack) : Expiry :=
  { ptr := ft.nextPtr + 1, flow := ft.nextPtr, expiresAt := 1, reason := .general }

theorem FlowTrack.mem_of_flowAt {ft : FlowTrack} {p : ℕ} {f : Flow} (h : ft.flowAt p = some f) :
    f ∈ ft.flows ∧ f.ptr = p :=
  ⟨List.mem_of_find?_eq_some h, by simpa using List.find?_some h⟩

namespace TableInv

variable {n : ℕ} {ft ft' : FlowTrack} {f : Flow} {e : Expiry} {p : ℕ}

/-- The table of `init_flowtrack`. -/
theorem empty {ft : FlowTrack} (hf : ft.flows = []) (he : ft.expiries = [])
    (hseq : ft.nextFlowSeq = 1) (hnum : ft.numFlows = 0) : TableInv 0 ft := by
  constructor <;> simp [hf, he, hseq, hnum, Sorted]

/-- The invariant only looks at the identities of the flows. -/
theorem of_ident (h : TableInv n ft) (hf : ft'.flows.map Flow.ident = ft.flows.map Flow.ident)
    (he : ft'.expiries = ft.expiries) (hptr : ft'.nextPtr = ft.nextPtr)
    (hseq : ft'.nextFlowSeq = ft.nextFlowSeq) (hnum : ft'.numFlows = ft.numFlows) :
    TableInv n ft' := by
  -- all that the invariant says of a flow, it says of its `ident`
  have hmap {β : Type} (g : _ → β) :
      ft'.flows.map (fun f => g f.ident) = ft.flows.map (fun f => g f.ident) := by
    simpa [List.map_map, Function.comp_def] using congrArg (List.map g) hf
  have hmem {q : _ → Prop} (hq : ∀ f ∈ ft.flows, q f.ident) : ∀ f ∈ ft'.flows, q f.ident := by
    intro f hf'
    have hin : f.ident ∈ ft.flows.map Flow.ident := hf ▸ List.mem_map_of_mem hf'
    obtain ⟨f₀, hf₀, hid⟩ := List.mem_map.mp hin
    exact hid ▸ hq f₀ hf₀
  refine { sorted_flows := ?_, sorted_expiries := ?_, linked := ?_, nodup_ptr := ?_,
           nodup_expiry := ?_, ptr_lt := ?_, expiry_lt := ?_, nodup_seq := ?_, seq_lt := ?_,
           nextFlowSeq_eq := ?_, numFlows_eq := ?_ }
  · rw [sorted_flows_iff]
    have := hmap fun x => x.2.2.2
    exact this ▸ sorted_flows_iff.mp h.sorted_flows
  · rw [he, expiryCompare_congr (flowSeqAt_congr hf)]
    exact h.sorted_expiries
  · rw [he]
    have := hmap fun x => (x.1, x.2.1)
    exact this ▸ h.linked
  · have := hmap fun x => x.1
    exact this ▸ h.nodup_ptr
  · rw [he]
    exact h.nodup_expiry
  · rw [hptr]
    exact hmem (q := fun x => x.1 < ft.nextPtr) h.ptr_lt
  · rw [he, hptr]
    exact h.expiry_lt
  · have := hmap fun x => x.2.2.1
    exact this ▸ h.nodup_seq
  · exact hmem (q := fun x => ∃ i < n, x.2.2.1 = UInt64.ofNat (1 + i)) h.seq_lt
  · rw [hseq]
    exact h.nextFlowSeq_eq
  · have hlen : ft'.flows.length = ft.flows.length := by
      simpa using congrArg List.length hf
    rw [hnum, hlen]
    exact h.numFlows_eq

/-! ## Following the pointers -/

theorem length_expiries (h : TableInv n ft) : ft.expiries.length = ft.flows.length := by
  simpa using h.linked.length_eq

/-- The flow at the address of a flow of the table is that flow. -/
theorem flowAt_eq (h : TableInv n ft) (hf : f ∈ ft.flows) : ft.flowAt f.ptr = some f := by
  rw [FlowTrack.flowAt]
  exact find?_key_eq h.nodup_ptr hf

/-- The expiry event of a flow of the table. -/
theorem expiryOf_eq (h : TableInv n ft) (hf : f ∈ ft.flows) :
    ∃ e ∈ ft.expiries, ft.expiryOf f = some e ∧ e.flow = f.ptr ∧ f.expiry = some e.ptr := by
  have hin : (f.ptr, f.expiry) ∈ ft.expiries.map fun e => (e.flow, some e.ptr) :=
    h.linked.symm.subset (List.mem_map_of_mem hf)
  obtain ⟨e, he, hpair⟩ := List.mem_map.mp hin
  obtain ⟨hflow, hptr⟩ := Prod.mk.inj hpair
  refine ⟨e, he, ?_, hflow, hptr.symm⟩
  rw [FlowTrack.expiryOf, ← hptr, Option.bind_some]
  exact find?_key_eq h.nodup_expiry he

/-- The flow of an expiry event of the table. -/
theorem flow_of_expiry (h : TableInv n ft) (he : e ∈ ft.expiries) :
    ∃ f ∈ ft.flows, f.ptr = e.flow ∧ f.expiry = some e.ptr := by
  have hin : (e.flow, some e.ptr) ∈ ft.flows.map fun f => (f.ptr, f.expiry) :=
    h.linked.subset (List.mem_map_of_mem he)
  obtain ⟨f, hf, hpair⟩ := List.mem_map.mp hin
  obtain ⟨hptr, hexp⟩ := Prod.mk.inj hpair
  exact ⟨f, hf, hptr, hexp⟩

theorem flowSeqAt_eq (h : TableInv n ft) (hf : f ∈ ft.flows) :
    flowSeqAt ft.flows f.ptr = f.flowSeq := by
  have hat : ft.flows.find? (fun g => g.ptr == f.ptr) = some f := h.flowAt_eq hf
  rw [flowSeqAt, hat]
  rfl

/-- Expiry events of flows with the same sequence number are the same. -/
theorem expiry_eq_of_seq (h : TableInv n ft) {e e' : Expiry} (he : e ∈ ft.expiries)
    (he' : e' ∈ ft.expiries) (hseq : flowSeqAt ft.flows e.flow = flowSeqAt ft.flows e'.flow) :
    e = e' := by
  obtain ⟨f, hf, hptr, hexp⟩ := h.flow_of_expiry he
  obtain ⟨f', hf', hptr', hexp'⟩ := h.flow_of_expiry he'
  rw [← hptr, ← hptr', h.flowSeqAt_eq hf, h.flowSeqAt_eq hf'] at hseq
  obtain rfl : f = f' := List.inj_on_of_nodup_map h.nodup_seq hf hf' hseq
  have hp : e.ptr = e'.ptr := Option.some.inj (hexp.symm.trans hexp')
  exact List.inj_on_of_nodup_map h.nodup_expiry he he' hp

/-! ## Updating a flow -/

/-- An update that leaves the identity of the flow alone keeps the invariant. -/
theorem modifyFlow (h : TableInv n ft) {g : Flow → Flow}
    (hg : ∀ f ∈ ft.flows, f.ptr = p → (g f).ident = f.ident) : TableInv n (ft.modifyFlow p g) := by
  refine h.of_ident ?_ rfl rfl rfl rfl
  rw [FlowTrack.modifyFlow, List.map_map]
  refine List.map_congr_left fun f hf => ?_
  by_cases hp : f.ptr = p
  · simpa [hp] using hg f hf hp
  · simp [hp]

/-! ## Rescheduling an expiry event -/

/-- A rescheduled event is equal to none of the others: its flow has another sequence number. -/
theorem rekey_ne (h : TableInv n ft) (he : e ∈ ft.expiries) (t : UInt32) (r : Reason) :
    ∀ x ∈ ft.expiries.filter (fun x => x.ptr != e.ptr),
      expiryCompare ft.flows { e with expiresAt := t, reason := r } x ≠ .eq := by
  intro x hx heq
  obtain ⟨hx, hptr⟩ := List.mem_filter.mp hx
  have hex : e = x := h.expiry_eq_of_seq he hx (expiryCompare_eq_iff.mp heq).2
  simp [hex] at hptr

/-- Rescheduling changes the key of one event. -/
theorem rekey_perm (h : TableInv n ft) (he : e ∈ ft.expiries) (t : UInt32) (r : Reason) :
    (ft.rekey e t r).expiries.Perm ({ e with expiresAt := t, reason := r } ::
      ft.expiries.filter fun x => x.ptr != e.ptr) :=
  insert_perm (h.rekey_ne he t r)

/-- Remove an expiry event, change its key while it is out of the tree, and insert it again. -/
theorem rekey (h : TableInv n ft) (he : e ∈ ft.expiries) (t : UInt32) (r : Reason) :
    TableInv n (ft.rekey e t r) := by
  set rest := ft.expiries.filter fun x => x.ptr != e.ptr with hrest
  have hperm : ft.expiries.Perm (e :: rest) := perm_cons_filter_ne h.nodup_expiry he
  have hins := h.rekey_perm he t r
  refine { h with
    sorted_expiries := sorted_insert (h.sorted_expiries.filter _) (h.rekey_ne he t r)
    linked := ?_
    nodup_expiry := ?_
    expiry_lt := ?_ }
  · exact ((hins.map _).trans (hperm.map fun e => (e.flow, some e.ptr)).symm).trans h.linked
  · exact ((hins.map Expiry.ptr).trans (hperm.map Expiry.ptr).symm).nodup_iff.mpr h.nodup_expiry
  · intro x hx
    rcases List.mem_cons.mp (hins.subset hx) with rfl | hx
    · exact h.expiry_lt e he
    · exact h.expiry_lt x (List.mem_of_mem_filter hx)

/-! ## Creating a flow -/

theorem fresh (h : TableInv n ft) (hn : n < 2 ^ 64) :
    ∀ f ∈ ft.flows, f.ptr ≠ ft.nextPtr ∧ f.flowSeq ≠ ft.nextFlowSeq := by
  intro f hf
  refine ⟨Nat.ne_of_lt (h.ptr_lt f hf), fun heq => ?_⟩
  obtain ⟨i, hi, hseq⟩ := h.seq_lt f hf
  rw [h.nextFlowSeq_eq, hseq, ← UInt64.toNat_inj, UInt64.toNat_ofNat', UInt64.toNat_ofNat'] at heq
  omega

/-- A new flow with its expiry event, when no flow of the table has its key. -/
theorem createFlow (h : TableInv n ft) (hn : n < 2 ^ 64) (tmp : Flow)
    (hkey : ∀ f ∈ ft.flows, flowCompare tmp f ≠ .eq) :
    ∃ ft', ft.createFlow tmp {} = (ft', some ft.nextPtr) ∧ TableInv (n + 1) ft' ∧
      ft'.flows.Perm (ft.createdFlow tmp :: ft.flows) ∧
      ft'.expiries.Perm (ft.createdExpiry :: ft.expiries) := by
  have hfresh := h.fresh hn
  set flow := ft.createdFlow tmp with hflow
  set flows := OrderedSet.insert flowCompare flow ft.flows with hflows
  have hperm : flows.Perm (flow :: ft.flows) := insert_perm hkey
  have hmem : flow ∈ flows := hperm.symm.subset List.mem_cons_self
  have hptrs : (flows.map Flow.ptr).Nodup := by
    rw [(hperm.map Flow.ptr).nodup_iff, List.map_cons, List.nodup_cons]
    refine ⟨fun hin => ?_, h.nodup_ptr⟩
    obtain ⟨f, hf, hp⟩ := List.mem_map.mp hin
    exact (hfresh f hf).1 hp
  -- the sequence numbers of the flows that were there are found as before
  have hseqOld : ∀ f ∈ ft.flows, flowSeqAt flows f.ptr = f.flowSeq := by
    intro f hf
    have hat : flows.find? (fun g => g.ptr == f.ptr) = some f :=
      find?_key_eq hptrs (hperm.symm.subset (List.mem_cons_of_mem _ hf))
    rw [flowSeqAt, hat]
    rfl
  have hseqNew : flowSeqAt flows ft.nextPtr = ft.nextFlowSeq := by
    have hat : flows.find? (fun g => g.ptr == flow.ptr) = some flow := find?_key_eq hptrs hmem
    rw [flowSeqAt, show ft.nextPtr = flow.ptr from rfl, hat]
    rfl
  have hseq : ∀ e ∈ ft.expiries, flowSeqAt flows e.flow = flowSeqAt ft.flows e.flow := by
    intro e he
    obtain ⟨f, hf, hptr, -⟩ := h.flow_of_expiry he
    rw [← hptr, hseqOld f hf, h.flowSeqAt_eq hf]
  have hsorted : Sorted (expiryCompare flows) ft.expiries := by
    refine h.sorted_expiries.congr fun a ha b hb => ?_
    simp only [expiryCompare, hseq a ha, hseq b hb]
  have hne : ∀ e ∈ ft.expiries, expiryCompare flows ft.createdExpiry e ≠ .eq := by
    intro e he heq
    obtain ⟨f, hf, hptr, -⟩ := h.flow_of_expiry he
    have := (expiryCompare_eq_iff.mp heq).2
    rw [← hptr, hseqOld f hf, show ft.createdExpiry.flow = ft.nextPtr from rfl, hseqNew] at this
    exact (hfresh f hf).2 this.symm
  have hpermE := insert_perm hne
  set expiries := OrderedSet.insert (expiryCompare flows) ft.createdExpiry ft.expiries
  obtain ⟨ft', hcreate, hf', he', hptr', hseq', hnum'⟩ : ∃ ft', ft.createFlow tmp {} =
      (ft', some ft.nextPtr) ∧ ft'.flows = flows ∧ ft'.expiries = expiries ∧
      ft'.nextPtr = ft.nextPtr + 2 ∧ ft'.nextFlowSeq = ft.nextFlowSeq + 1 ∧
      ft'.numFlows = ft.numFlows + 1 :=
    ⟨_, rfl, rfl, rfl, rfl, rfl, rfl⟩
  refine ⟨ft', hcreate, ?_, hf' ▸ hperm, he' ▸ hpermE⟩
  constructor <;> simp only [hf', he', hptr', hseq', hnum']
  · exact sorted_insert h.sorted_flows hkey
  · exact sorted_insert hsorted hne
  · have hflowPairs := hperm.map fun f : Flow => (f.ptr, f.expiry)
    have hexpiryPairs := hpermE.map fun e : Expiry => (e.flow, some e.ptr)
    exact hexpiryPairs.trans ((h.linked.cons _).trans hflowPairs.symm)
  · exact hptrs
  · rw [(hpermE.map Expiry.ptr).nodup_iff, List.map_cons, List.nodup_cons]
    refine ⟨fun hin => ?_, h.nodup_expiry⟩
    obtain ⟨e, he, hp⟩ := List.mem_map.mp hin
    have hlt := h.expiry_lt e he
    have hp' : e.ptr = ft.nextPtr + 1 := hp
    omega
  · intro f hf
    rcases List.mem_cons.mp (hperm.subset hf) with rfl | hf
    · exact Nat.lt_add_of_pos_right (by decide)
    · exact Nat.lt_add_right 2 (h.ptr_lt f hf)
  · intro e he
    rcases List.mem_cons.mp (hpermE.subset he) with rfl | he
    · exact Nat.lt_succ_self _
    · exact Nat.lt_add_right 2 (h.expiry_lt e he)
  · rw [(hperm.map Flow.flowSeq).nodup_iff, List.map_cons, List.nodup_cons]
    refine ⟨fun hin => ?_, h.nodup_seq⟩
    obtain ⟨f, hf, hs⟩ := List.mem_map.mp hin
    exact (hfresh f hf).2 hs
  · intro f hf
    rcases List.mem_cons.mp (hperm.subset hf) with rfl | hf
    · exact ⟨n, Nat.lt_succ_self n, h.nextFlowSeq_eq⟩
    · obtain ⟨i, hi, hs⟩ := h.seq_lt f hf
      exact ⟨i, Nat.lt_succ_of_lt hi, hs⟩
  · rw [h.nextFlowSeq_eq, ← Nat.add_assoc, UInt64.ofNat_add (1 + n) 1]
    rfl
  · rw [hperm.length_eq, List.length_cons, h.numFlows_eq, UInt32.ofNat_add]
    rfl

/-! ## Taking a flow out of the table -/

/-- Remove a flow together with its expiry event. -/
theorem unlink (h : TableInv n ft) (hf : f ∈ ft.flows) (he : e ∈ ft.expiries)
    (hflow : e.flow = f.ptr) (hexp : f.expiry = some e.ptr)
    (hf' : ft'.flows = ft.flows.filter fun g => g.ptr != f.ptr)
    (he' : ft'.expiries = ft.expiries.filter fun x => x.ptr != e.ptr)
    (hptr' : ft'.nextPtr = ft.nextPtr) (hseq' : ft'.nextFlowSeq = ft.nextFlowSeq)
    (hnum' : ft'.numFlows = ft.numFlows - 1) : TableInv n ft' := by
  have hperm : ft.flows.Perm (f :: ft'.flows) := hf' ▸ perm_cons_filter_ne h.nodup_ptr hf
  have hpermE : ft.expiries.Perm (e :: ft'.expiries) :=
    he' ▸ perm_cons_filter_ne h.nodup_expiry he
  have hsub : ∀ g ∈ ft'.flows, g ∈ ft.flows := fun g hg =>
    hperm.symm.subset (List.mem_cons_of_mem f hg)
  have hsubE : ∀ x ∈ ft'.expiries, x ∈ ft.expiries := fun x hx =>
    hpermE.symm.subset (List.mem_cons_of_mem e hx)
  have hptrs : (ft'.flows.map Flow.ptr).Nodup :=
    (List.nodup_cons.mp ((hperm.map Flow.ptr).nodup_iff.mp h.nodup_ptr)).2
  have hlinked : (ft'.expiries.map fun e => (e.flow, some e.ptr)).Perm
      (ft'.flows.map fun f => (f.ptr, f.expiry)) := by
    have hpairs := ((hpermE.map fun e => (e.flow, some e.ptr)).symm.trans h.linked).trans
      (hperm.map fun f => (f.ptr, f.expiry))
    rw [List.map_cons, List.map_cons, hflow, hexp] at hpairs
    exact hpairs.cons_inv
  -- the remaining events belong to remaining flows, whose sequence numbers are still found
  have hseq : ∀ x ∈ ft'.expiries, flowSeqAt ft'.flows x.flow = flowSeqAt ft.flows x.flow := by
    intro x hx
    have hin : (x.flow, some x.ptr) ∈ ft'.flows.map fun f => (f.ptr, f.expiry) :=
      hlinked.subset (List.mem_map_of_mem hx)
    obtain ⟨g, hg, hpair⟩ := List.mem_map.mp hin
    obtain ⟨hgptr, -⟩ := Prod.mk.inj hpair
    have hat : ft'.flows.find? (fun y => y.ptr == g.ptr) = some g := find?_key_eq hptrs hg
    rw [← hgptr, h.flowSeqAt_eq (hsub g hg), flowSeqAt, hat]
    rfl
  refine { sorted_flows := ?_, sorted_expiries := ?_, linked := hlinked, nodup_ptr := hptrs,
           nodup_expiry := ?_, ptr_lt := ?_, expiry_lt := ?_, nodup_seq := ?_, seq_lt := ?_,
           nextFlowSeq_eq := ?_, numFlows_eq := ?_ }
  · rw [hf']
    exact h.sorted_flows.filter _
  · have hold : Sorted (expiryCompare ft.flows) ft'.expiries := he' ▸ h.sorted_expiries.filter _
    refine hold.congr fun a ha b hb => ?_
    simp only [expiryCompare, hseq a ha, hseq b hb]
  · exact (List.nodup_cons.mp ((hpermE.map Expiry.ptr).nodup_iff.mp h.nodup_expiry)).2
  · rw [hptr']
    exact fun g hg => h.ptr_lt g (hsub g hg)
  · rw [hptr']
    exact fun x hx => h.expiry_lt x (hsubE x hx)
  · exact (List.nodup_cons.mp ((hperm.map Flow.flowSeq).nodup_iff.mp h.nodup_seq)).2
  · exact fun g hg => h.seq_lt g (hsub g hg)
  · rw [hseq', h.nextFlowSeq_eq]
  · rw [hnum', h.numFlows_eq, hperm.length_eq, List.length_cons, UInt32.ofNat_add]
    exact UInt32.add_sub_cancel _ _

end TableInv

end Softflowd
