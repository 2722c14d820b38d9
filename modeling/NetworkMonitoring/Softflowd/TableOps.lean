import NetworkMonitoring.Softflowd.ExpiryScan
import NetworkMonitoring.Softflowd.TableInvariant

/-!
# softflowd — the operations keep the flow table consistent

One lemma for each function that works on the flow table: from a consistent table the function
returns and leaves a consistent table. `created n ft ft'` counts the flows created so far;
`next_flow_seq` moves exactly when a flow is created.
-/

namespace Softflowd

open OrderedSet Function

/-- The number of flows created up to the state `ft'` when there were `n` up to `ft`. -/
def created (n : ℕ) (ft ft' : FlowTrack) : ℕ :=
  if ft'.nextFlowSeq = ft.nextFlowSeq then n else n + 1

theorem le_created (n : ℕ) (ft ft' : FlowTrack) : n ≤ created n ft ft' := by
  unfold created
  split <;> omega

/-- `next_flow_seq` moves when a flow is created. -/
theorem ofNat_succ_ne (n : ℕ) : UInt64.ofNat (1 + (n + 1)) ≠ UInt64.ofNat (1 + n) := by
  intro heq
  rw [← UInt64.toNat_inj, UInt64.toNat_ofNat', UInt64.toNat_ofNat'] at heq
  omega

@[simp]
theorem FlowTrack.nextFlowSeq_countFragment (ft : FlowTrack) (frag : Bool) :
    (ft.countFragment frag).nextFlowSeq = ft.nextFlowSeq := by
  unfold FlowTrack.countFragment
  split <;> rfl

namespace TableInv

variable {n : ℕ} {ft ft' : FlowTrack} {f : Flow} {e : Expiry}

theorem created_eq_self (hseq : ft'.nextFlowSeq = ft.nextFlowSeq) : created n ft ft' = n :=
  if_pos hseq

theorem created_eq_succ (h : TableInv n ft) (h' : TableInv (n + 1) ft') :
    created n ft ft' = n + 1 := by
  have hne : ft'.nextFlowSeq ≠ ft.nextFlowSeq := by
    rw [h'.nextFlowSeq_eq, h.nextFlowSeq_eq]
    exact ofNat_succ_ne n
  exact if_neg hne

theorem created_of_eq (h : TableInv n ft') (hseq : ft'.nextFlowSeq = ft.nextFlowSeq) :
    TableInv (created n ft ft') ft' := by
  rw [created_eq_self hseq]
  exact h

theorem created_of_succ (h : TableInv n ft) (h' : TableInv (n + 1) ft') :
    TableInv (created n ft ft') ft' := by
  rw [h.created_eq_succ h']
  exact h'

/-! ## Updating flows -/

/-- `flow_update_expiry` reschedules the expiry event of a flow of the table. -/
theorem flowUpdateExpiry (h : TableInv n ft) (hf : f ∈ ft.flows) :
    ∃ e ∈ ft.expiries, ft.flowUpdateExpiry f.ptr =
      .ok (ft.rekey e (ft.newExpiry f).1 (ft.newExpiry f).2) ∧ e.flow = f.ptr := by
  obtain ⟨e, he, hof, hflow, -⟩ := h.expiryOf_eq hf
  exact ⟨e, he, FlowTrack.flowUpdateExpiry_eq_ok.mpr ⟨f, e, h.flowAt_eq hf, hof, rfl⟩, hflow⟩

/-- Updating the flow `f` of the table replaces it. -/
theorem mem_modifyFlow (hf : f ∈ ft.flows) (g : Flow → Flow) :
    g f ∈ (ft.modifyFlow f.ptr g).flows :=
  List.mem_map.mpr ⟨f, hf, if_pos rfl⟩

/-- The end of `process_packet`. -/
theorem touchFlow (h : TableInv n ft) (hf : f ∈ ft.flows) (received : Timeval) :
    ∃ ft', ft.touchFlow f.ptr received = .ok ft' ∧ TableInv n ft' ∧
      ft'.nextFlowSeq = ft.nextFlowSeq ∧ ft'.trackLevel = ft.trackLevel ∧
      ft'.flows.map Flow.key = ft.flows.map Flow.key := by
  set g : Flow → Flow := fun f => { f with flowLast := received }
  have h₁ : TableInv n (ft.modifyFlow f.ptr g) := h.modifyFlow fun _ _ _ => rfl
  have hkeys : (ft.modifyFlow f.ptr g).flows.map Flow.key = ft.flows.map Flow.key := by
    rw [FlowTrack.modifyFlow, List.map_map]
    refine List.map_congr_left fun x _ => ?_
    by_cases hx : x.ptr = f.ptr
    · simp [hx, g, Flow.key]
    · simp [hx]
  have hg : g f ∈ (ft.modifyFlow f.ptr g).flows := mem_modifyFlow hf g
  obtain ⟨e, he, hof, -, -⟩ := h₁.expiryOf_eq hg
  have hat : ((ft.modifyFlow f.ptr g).flowAt f.ptr).bind (ft.modifyFlow f.ptr g).expiryOf =
      some e := by
    rw [show f.ptr = (g f).ptr from rfl, h₁.flowAt_eq hg]
    exact hof
  unfold FlowTrack.touchFlow
  simp only [show (fun f : Flow => { f with flowLast := received }) = g from rfl, hat]
  by_cases h0 : e.expiresAt ≠ 0
  · obtain ⟨e', he', hupd, -⟩ := h₁.flowUpdateExpiry hg
    exact ⟨_, (if_pos h0).trans hupd, h₁.rekey he' _ _, rfl, rfl, hkeys⟩
  · exact ⟨_, if_neg h0, h₁, rfl, rfl, hkeys⟩

/-- Counters outside the trees do not matter. -/
theorem of_table (h : TableInv n ft) (heq : ft'.table = ft.table) : TableInv n ft' := by
  simp only [FlowTrack.table, Prod.mk.injEq] at heq
  obtain ⟨hf, he, hnum, hseq, hptr⟩ := heq
  exact h.of_ident (by rw [hf]) he hptr hseq hnum

theorem countFragment (h : TableInv n ft) (frag : Bool) : TableInv n (ft.countFragment frag) := by
  unfold FlowTrack.countFragment
  split
  · exact h.of_table rfl
  · exact h

/-- Filing a record that starts a flow. -/
theorem fileRecord_new (h : TableInv n ft) (hn : n < 2 ^ 64) {tmp : Flow}
    (hfind : ft.flowFind tmp = none) (received : Timeval) :
    ∃ ft', ft.fileRecord tmp {} received = .ok (.ok, ft') ∧ TableInv (n + 1) ft' ∧
      ft'.trackLevel = ft.trackLevel ∧
      (ft'.flows.map Flow.key).Perm (tmp.key :: ft.flows.map Flow.key) := by
  obtain ⟨ft₁, hcreate, h₁, hperm, -⟩ :=
    h.createFlow hn { tmp with flowStart := received } (find_eq_none hfind)
  have hmem : ft.createdFlow { tmp with flowStart := received } ∈ ft₁.flows :=
    hperm.symm.subset List.mem_cons_self
  obtain ⟨ft₂, htouch, h₂, -, hlevel, hkeys⟩ := h₁.touchFlow hmem received
  have htouch' : ft₁.touchFlow ft.nextPtr received = .ok ft₂ := htouch
  have hlevel₁ : ft₁.trackLevel = ft.trackLevel :=
    (congrArg (fun x => x.1.trackLevel) hcreate).symm
  refine ⟨ft₂, ?_, h₂, hlevel.trans hlevel₁, ?_⟩
  · unfold FlowTrack.fileRecord
    simp only [hfind, hcreate, htouch']
    rfl
  · rw [hkeys]
    exact hperm.map Flow.key

/-- Filing a record, with working allocations. -/
theorem fileRecord (h : TableInv n ft) (hn : n < 2 ^ 64) (tmp : Flow) (received : Timeval) :
    ∃ r ft', ft.fileRecord tmp {} received = .ok (r, ft') ∧ TableInv (created n ft ft') ft' := by
  cases hfind : ft.flowFind tmp with
  | none =>
    obtain ⟨ft', hfile, h', -, -⟩ := h.fileRecord_new hn hfind received
    exact ⟨.ok, ft', hfile, h.created_of_succ h'⟩
  | some flow =>
    obtain ⟨hflow, -⟩ := find_eq_some hfind
    have h₁ : TableInv n (ft.modifyFlow flow.ptr (FlowTrack.addRecord tmp)) :=
      h.modifyFlow fun _ _ _ => rfl
    obtain ⟨ft₂, htouch, h₂, hseq, -, -⟩ := h₁.touchFlow (mem_modifyFlow hflow _) received
    refine ⟨.ok, ft₂, ?_, h₂.created_of_eq hseq⟩
    have htouch' : (ft.modifyFlow flow.ptr (FlowTrack.addRecord tmp)).touchFlow flow.ptr received =
        .ok ft₂ := htouch
    unfold FlowTrack.fileRecord
    simp only [hfind, htouch']
    rfl

/-- `process_packet` with working allocations. -/
theorem processPacket (h : TableInv n ft) (hn : n < 2 ^ 64) (m : Bytes.Mem) (af : ℤ)
    (caplen len : UInt32) (received : Timeval) :
    ∃ r ft', ft.processPacket {} m af caplen len received = .ok (r, ft') ∧
      TableInv (created n ft ft') ft' := by
  unfold FlowTrack.processPacket
  cases FlowTrack.packetRecord m af caplen len with
  | none =>
    refine ⟨_, _, rfl, created_of_eq ?_ rfl⟩
    exact h.of_table rfl
  | some record =>
    obtain ⟨tmp, frag⟩ := record
    have h₁ : TableInv n { ft with totalPackets := ft.totalPackets + 1 } :=
      h.of_table rfl
    obtain ⟨r, ft', hfile, h'⟩ := (h₁.countFragment frag).fileRecord hn
      (({ ft with totalPackets := ft.totalPackets + 1 }.countFragment frag).maskRecord tmp) received
    refine ⟨r, ft', hfile, ?_⟩
    rwa [created, FlowTrack.nextFlowSeq_countFragment] at h'

/-! ## Forcing expiry and deleting -/

/-- Rescheduling leaves the pointers of the expiry events alone. -/
theorem mem_pairs_rekey (h : TableInv n ft) (he : e ∈ ft.expiries) {t : UInt32} {r : Reason}
    {x : Expiry} (hx : x ∈ ft.expiries) :
    ∃ y ∈ (ft.rekey e t r).expiries, y.ptr = x.ptr ∧ y.flow = x.flow := by
  have hpair := (h.rekey he t r).linked.symm.subset (h.linked.subset
    (List.mem_map_of_mem (f := fun e : Expiry => (e.flow, some e.ptr)) hx))
  obtain ⟨y, hy, heq⟩ := List.mem_map.mp hpair
  obtain ⟨hflow, hptr⟩ := Prod.mk.inj heq
  exact ⟨y, hy, Option.some.inj hptr, hflow⟩

/-- The second loop of `force_expire`: the events are the ones the first loop listed, as they were
then; their pointers are still right. -/
theorem foldl_rekey (es : List Expiry) :
    ∀ {ft : FlowTrack}, TableInv n ft →
      (∀ e ∈ es, ∃ x ∈ ft.expiries, x.ptr = e.ptr ∧ x.flow = e.flow) →
      TableInv n (es.foldl (fun ft e => ft.rekey e 0 .overflows) ft) ∧
        (es.foldl (fun ft e => ft.rekey e 0 .overflows) ft).nextFlowSeq = ft.nextFlowSeq := by
  induction es with
  | nil => exact fun h _ => ⟨h, rfl⟩
  | cons e es ih =>
    intro ft h hes
    obtain ⟨x, hx, hptr, hflow⟩ := hes e List.mem_cons_self
    have hrekey : ft.rekey e 0 .overflows = ft.rekey x 0 .overflows := by
      unfold FlowTrack.rekey
      rw [← hptr]
      congr 1
      simp [hptr, hflow]
    rw [List.foldl_cons, hrekey]
    obtain ⟨hinv, hseq⟩ := ih (h.rekey hx 0 .overflows) fun y hy => by
      obtain ⟨z, hz, hzptr, hzflow⟩ := hes y (List.mem_cons_of_mem e hy)
      obtain ⟨w, hw, hwptr, hwflow⟩ := h.mem_pairs_rekey hx hz
      exact ⟨w, hw, hwptr.trans hzptr, hwflow.trans hzflow⟩
    exact ⟨hinv, hseq⟩

/-- `force_expire` with a working allocation. -/
theorem forceExpire (h : TableInv n ft) (num : UInt32) :
    TableInv n (ft.forceExpire true num) ∧
      (ft.forceExpire true num).nextFlowSeq = ft.nextFlowSeq := by
  obtain ⟨hinv, hseq⟩ := foldl_rekey (ft.expiries.take num.toNat) h fun e he =>
    ⟨e, List.mem_of_mem_take he, rfl, rfl⟩
  exact ⟨hinv.of_table rfl, hseq⟩

/-- The loop of `delete_all_flows` over flows that are all in the table. -/
theorem foldlM_deleteFlow (fs : List Flow) :
    ∀ {ft : FlowTrack}, TableInv n ft → (fs.map Flow.ptr).Nodup → (∀ f ∈ fs, f ∈ ft.flows) →
      ∃ ft', fs.foldlM FlowTrack.deleteFlow ft = .ok ft' ∧ TableInv n ft' ∧
        ft'.nextFlowSeq = ft.nextFlowSeq := by
  induction fs with
  | nil => exact fun h _ _ => ⟨_, rfl, h, rfl⟩
  | cons f fs ih =>
    intro ft h hnd hfs
    have hf := hfs f List.mem_cons_self
    obtain ⟨e, he, -, hflow, hexp⟩ := h.expiryOf_eq hf
    obtain ⟨ft₁, hdel, hf₁, he₁, hptr₁, hseq₁, hnum₁⟩ : ∃ ft₁, ft.deleteFlow f = .ok ft₁ ∧
        ft₁.flows = ft.flows.filter (fun g => g.ptr != f.ptr) ∧
        ft₁.expiries = ft.expiries.filter (fun x => x.ptr != e.ptr) ∧
        ft₁.nextPtr = ft.nextPtr ∧ ft₁.nextFlowSeq = ft.nextFlowSeq ∧
        ft₁.numFlows = ft.numFlows - 1 := by
      refine ⟨{ (ft.flowRemove f.ptr).expiryRemove e.ptr with numFlows := ft.numFlows - 1 }, ?_,
        rfl, rfl, rfl, rfl, rfl⟩
      unfold FlowTrack.deleteFlow
      rw [hexp]
      rfl
    -- the flow leaves the table together with its event
    have h₁ : TableInv n ft₁ := h.unlink hf he hflow hexp hf₁ he₁ hptr₁ hseq₁ hnum₁
    rw [List.map_cons, List.nodup_cons] at hnd
    obtain ⟨ft₂, hfold, h₂, hseq₂⟩ := ih h₁ hnd.2 fun g hg => by
      have hne : g.ptr ≠ f.ptr := fun heq => hnd.1 (heq ▸ List.mem_map_of_mem hg)
      rw [hf₁]
      exact List.mem_filter.mpr ⟨hfs g (List.mem_cons_of_mem f hg), by simpa using hne⟩
    refine ⟨ft₂, ?_, h₂, hseq₂.trans hseq₁⟩
    rw [List.foldlM_cons, hdel]
    exact hfold

/-- `delete_all_flows`. -/
theorem deleteAllFlows (h : TableInv n ft) :
    ∃ r ft', ft.deleteAllFlows = .ok (r, ft') ∧ TableInv n ft' ∧
      ft'.nextFlowSeq = ft.nextFlowSeq := by
  obtain ⟨ft', hfold, h', hseq⟩ := foldlM_deleteFlow ft.flows h h.nodup_ptr fun _ hf => hf
  refine ⟨ft.flows.length, ft', ?_, h', hseq⟩
  unfold FlowTrack.deleteAllFlows
  rw [hfold]
  rfl

/-! ## The expiry scan -/

/-- Taking out an expired flow. -/
theorem expireFlow (h : TableInv n ft) (he : e ∈ ft.expiries) (ex : ExpireMode) :
    ∃ f ∈ ft.flows, ft.flowAt e.flow = some f ∧ TableInv n (ft.expireFlow f e ex) ∧
      ft.flows.Perm (f :: (ft.expireFlow f e ex).flows) := by
  obtain ⟨f, hf, hptr, hexp⟩ := h.flow_of_expiry he
  have hflows : (ft.expireFlow f e ex).flows = ft.flows.filter fun g => g.ptr != f.ptr := rfl
  refine ⟨f, hf, hptr ▸ h.flowAt_eq hf, ?_, ?_⟩
  · exact h.unlink hf he hptr.symm hexp hflows rfl rfl rfl rfl
  · rw [hflows]
    exact perm_cons_filter_ne h.nodup_ptr hf

/-- The scan of `check_expired` with working allocations: `gone` are the flows it takes out. -/
theorem scanExpired (h : TableInv n ft) (now : Timeval) (ex : ExpireMode) :
    ∃ ft' gone, scanExpired now ex (fun _ => true) ft = .ok (ft', gone.map Flow.retire) ∧
      TableInv n ft' ∧ ft'.nextFlowSeq = ft.nextFlowSeq ∧ ft.flows.Perm (gone ++ ft'.flows) ∧
      ft'.expiries = ft.expiries.filter (fun e => !e.isDue now ex) := by
  obtain ⟨ft', gone, kept, hscan, h', hseq, hperm, -, hkept, hexp⟩ :=
    scanExpired_spec (P := TableInv n) now ex (fun _ => true) (fun _ h => h.nodup_expiry)
      (fun _ _ h he => h.expireFlow he ex) h
  exact ⟨ft', gone, hkept (fun _ => rfl) ▸ hscan, h', hseq, hperm, hexp⟩

end TableInv

/-- `check_expired` with working allocations. -/
theorem TableInv.checkExpired {n : ℕ} {c : ExpiryCall} {s s' : Daemon} {r : ℤ}
    (h : TableInv n s.tracker.ft) (halloc : c.reallocOk = fun _ => true)
    (hcall : checkExpired c s = .ok (r, s')) :
    TableInv n s'.tracker.ft ∧ s'.tracker.ft.nextFlowSeq = s.tracker.ft.nextFlowSeq := by
  obtain ⟨ft, expired, hscan, htable⟩ := checkExpired_table hcall
  obtain ⟨ft', gone, hscan', h', hseq, -, -⟩ := h.scanExpired c.now c.ex
  rw [halloc, hscan'] at hscan
  obtain ⟨rfl, -⟩ := Prod.mk.inj (Except.ok.inj hscan)
  refine ⟨h'.of_table htable, ?_⟩
  exact (congrArg (fun t => t.2.2.2.1) htable).trans hseq

end Softflowd
