import NetworkMonitoring.Softflowd.TreeRefinement

/-!
# softflowd — the loops over the trees

The expiry scan, forced expiry and the deletion of all flows change a tree while they walk along it.
Each of them visits the nodes the tree had at the start, once each, and ends.

## Main results

* `TreeTrack.scanExpired_agrees`, `TreeTrack.forceExpire_represents` and
  `TreeTrack.deleteAllFlows_agrees`.
-/

namespace Softflowd

open ErrorLoops OrderedSet

namespace TreeTrack

variable {tt : TreeTrack} {ft : FlowTrack} {n : ℕ}

/-! ## The expiry scan -/

/-- Taking out an expired flow of the table. -/
theorem expireFlow_represents (h : tt.Represents ft) (hinv : TableInv n ft) {flow : Flow}
    {e : Expiry} (hf : flow ∈ ft.flows) (he : e ∈ ft.expiries) (ex : ExpireMode) :
    ∃ tt', tt.expireFlow flow e ex = .ok tt' ∧ tt'.Represents (ft.expireFlow flow e ex) := by
  set reason := expiredReason ft flow e ex with hreason
  have h₁ := h.mapRest (g := fun ft => { ft with
    expired := Function.update ft.expired reason (ft.expired reason + 1) }) fun _ _ _ => rfl
  obtain ⟨tt₂, hrem, h₂⟩ := (h₁.flowRemove hinv.sorted_flows hinv.nodup_ptr hf).expiryRemove
    hinv.nodup_expiry he
  refine ⟨_, ?_, h₂.mapRest (g := fun ft => { ft with numFlows := ft.numFlows - 1 })
    fun _ _ _ => rfl⟩
  have hreason' : expiredReason tt.rest flow e ex = reason := by
    rw [hreason, ← h.table_eq]
    rfl
  unfold expireFlow
  simp only [hreason', hrem, ok_bind]
  rfl

/-- The results of the scan. -/
def SameScan (x : TreeTrack × List Flow) (y : FlowTrack × List Flow) : Prop :=
  x.1.Represents y.1 ∧ x.2 = y.2

/-- The scan from some point on: the events `es` are still to be visited. -/
theorem scanLoop_agrees (now : Timeval) (ex : ExpireMode) (reallocOk : Expiry → Bool)
    {es : List Expiry} {tt : TreeTrack} {ft : FlowTrack} (acc : List Flow) {pre : List Expiry}
    (h : tt.Represents ft) (hinv : TableInv n ft) (hes : ft.expiries = pre ++ es) {k : ℕ}
    (hk : es.length ≤ k) :
    Agrees SameScan (scanLoop now ex reallocOk k tt acc (es.head?.map Expiry.ptr))
      (es.foldlM (scanStep now ex reallocOk) (ft, acc)) := by
  induction es generalizing tt ft acc pre k with
  | nil =>
    have hend : scanLoop now ex reallocOk k tt acc none = .ok (tt, acc) := by cases k <;> rfl
    rw [List.head?_nil, Option.map_none, hend]
    exact ⟨h, rfl⟩
  | cons e es ih =>
    obtain ⟨k, rfl⟩ : ∃ k', k = k' + 1 := ⟨k - 1, by simp only [List.length_cons] at hk; omega⟩
    have hk' : es.length ≤ k := Nat.le_of_succ_le_succ hk
    have he : e ∈ ft.expiries := hes ▸ List.mem_append_right pre List.mem_cons_self
    have htree : tt.expiries.inorder = pre ++ e :: es := h.expiries_eq.trans hes
    have hnd : (tt.expiries.inorder.map Expiry.ptr).Nodup := h.expiries_eq ▸ hinv.nodup_expiry
    obtain ⟨cursor, hloc, -, rfl, -, hafter⟩ := RedBlackTree.exists_locate hnd htree
    -- the successor, taken before the event may be removed, is the next event of the list
    have hnext : cursor.next.map RedBlackTree.Cursor.elm = es.head? := by
      rw [cursor.next_elm, hafter]
    rw [List.head?_cons, Option.map_some, scanLoop, hloc, List.foldlM_cons]
    simp only [hnext, scanStep, h.table_eq]
    split
    · obtain ⟨flow, hf, hat, hinv', -⟩ := hinv.expireFlow he ex
      obtain ⟨tt', hexpire, h'⟩ := expireFlow_represents h hinv hf he ex
      have hrest : (ft.expireFlow flow cursor.elm ex).expiries = pre ++ es := by
        have hnd' : ((pre ++ cursor.elm :: es).map Expiry.ptr).Nodup := hes ▸ hinv.nodup_expiry
        exact (congrArg _ hes).trans (filter_key_ne_middle hnd')
      simp only [hat, hexpire, ok_bind]
      exact ih _ h' hinv' hrest hk'
    · have hes' : ft.expiries = (pre ++ [cursor.elm]) ++ es := by simpa using hes
      exact ih _ h hinv hes' hk'

/-- The first event of the tree. -/
theorem min?_eq (h : tt.Represents ft) :
    (RedBlackTree.min? tt.expiries).map RedBlackTree.Cursor.elm = ft.expiries.head? := by
  rw [← h.expiries_eq]
  have hvisit := RedBlackTree.visits_eq 1 tt.expiries
  cases hmin : RedBlackTree.min? tt.expiries with
  | none =>
    rw [hmin] at hvisit
    cases hl : tt.expiries.inorder with
    | nil => rfl
    | cons e es =>
      rw [hl] at hvisit
      cases hvisit
  | some cursor =>
    rw [hmin] at hvisit
    cases hl : tt.expiries.inorder with
    | nil =>
      rw [hl] at hvisit
      cases hvisit
    | cons e es =>
      rw [hl] at hvisit
      have hcons : [cursor.elm] = [e] := hvisit
      exact congrArg some (List.cons.inj hcons).1

/-- The scan of `check_expired`. -/
theorem scanExpired_agrees (h : tt.Represents ft) (hinv : TableInv n ft) (now : Timeval)
    (ex : ExpireMode) (reallocOk : Expiry → Bool) {k : ℕ} (hk : ft.expiries.length ≤ k) :
    Agrees SameScan (tt.scanExpired now ex reallocOk k)
      (Softflowd.scanExpired now ex reallocOk ft) := by
  unfold scanExpired
  rw [min?_eq h]
  exact scanLoop_agrees now ex reallocOk [] h hinv (List.nil_append _).symm hk

/-! ## Forced expiry -/

/-- Rescheduling events of the table, one after the other. -/
theorem foldlM_rekey_represents {es : List Expiry} {tt : TreeTrack} {ft : FlowTrack}
    (h : tt.Represents ft) (hinv : TableInv n ft) (hnd : (es.map Expiry.ptr).Nodup)
    (hes : ∀ e ∈ es, e ∈ ft.expiries) :
    ∃ tt', es.foldlM (fun tt e => tt.rekey e 0 .overflows) tt = .ok tt' ∧
      tt'.Represents (es.foldl (fun ft e => ft.rekey e 0 .overflows) ft) := by
  induction es generalizing tt ft with
  | nil => exact ⟨tt, rfl, h⟩
  | cons e es ih =>
    rw [List.map_cons, List.nodup_cons] at hnd
    have he := hes e List.mem_cons_self
    obtain ⟨tt₁, hrekey, h₁⟩ := h.rekey hinv he 0 .overflows
    -- the other events are still there as they were
    have hothers : ∀ x ∈ es, x ∈ (ft.rekey e 0 .overflows).expiries := by
      intro x hx
      have hne : x.ptr ≠ e.ptr := fun heq => hnd.1 (heq ▸ List.mem_map_of_mem hx)
      refine (hinv.rekey_perm he 0 .overflows).symm.subset (List.mem_cons_of_mem _ ?_)
      exact List.mem_filter.mpr ⟨hes x (List.mem_cons_of_mem e hx), by simpa using hne⟩
    obtain ⟨tt₂, hfold, h₂⟩ := ih h₁ (hinv.rekey he 0 .overflows) hnd.2 hothers
    refine ⟨tt₂, ?_, h₂⟩
    rw [List.foldlM_cons, hrekey]
    exact hfold

/-- `force_expire`. -/
theorem forceExpire_represents (h : tt.Represents ft) (hinv : TableInv n ft) (callocOk : Bool)
    (num : UInt32) : ∃ tt', tt.forceExpire callocOk num = .ok tt' ∧
      tt'.Represents (ft.forceExpire callocOk num) := by
  cases callocOk with
  | false =>
    refine ⟨_, rfl, ?_, ?_⟩
    · obtain ⟨rfl, hvalid⟩ := h
      simp [table, FlowTrack.forceExpire]
    · obtain ⟨m, hm⟩ := h.valid
      exact ⟨m, hm.map _⟩
  | true =>
    have hlist : RedBlackTree.visits num.toNat (RedBlackTree.min? tt.expiries) =
        ft.expiries.take num.toNat := by
      rw [RedBlackTree.visits_eq, h.expiries_eq]
    have hnd : ((ft.expiries.take num.toNat).map Expiry.ptr).Nodup :=
      hinv.nodup_expiry.sublist ((List.take_sublist _ _).map _)
    obtain ⟨tt', hfold, h'⟩ :=
      foldlM_rekey_represents h hinv hnd fun e he => List.mem_of_mem_take he
    refine ⟨_, ?_, h'.mapRest (g := fun ft' => { ft' with
      flowsForceExpired := ft'.flowsForceExpired +
        UInt64.ofNat (ft.expiries.take num.toNat).length }) fun _ _ _ => rfl⟩
    unfold forceExpire
    simp only [Bool.not_true, Bool.false_eq_true, if_false, hlist, hfold, ok_bind]
    rfl

/-! ## Deleting all flows -/

/-- `FLOW_MIN`. -/
theorem flowMin_represents (h : tt.Represents ft) :
    tt.flowMin.1.Represents ft ∧ tt.flowMin.2 = ft.flows.head? := by
  obtain ⟨rfl, hvalid⟩ := h
  refine ⟨⟨by simp [flowMin, table], hvalid⟩, ?_⟩
  unfold flowMin
  by_cases hnil : tt.flows = .nil
  · rw [table, hnil]
    rfl
  · obtain ⟨flow, l, r, hsplay, hinorder, hl, -⟩ :=
      SplayTree.splay_spec (c := fun _ => -1) hnil
        (List.pairwise_of_forall fun _ _ _ => neg_one_lt_zero)
    -- nothing stands before the first flow
    have hempty : SplayTree.inorder l = [] :=
      List.eq_nil_iff_forall_not_mem.mpr fun f hf => absurd (hl f hf) (by decide)
    rw [hsplay, table, hinorder, hempty]
    rfl

/-- `FLOW_NEXT` of a flow of the table. -/
theorem flowNext_represents (h : tt.Represents ft) (hs : Sorted flowCompare ft.flows)
    {pre post : List Flow} {flow : Flow} (hflows : ft.flows = pre ++ flow :: post) :
    (tt.flowNext flow).1.Represents ft ∧ (tt.flowNext flow).2 = post.head? := by
  obtain ⟨rfl, hvalid⟩ := h
  refine ⟨⟨by simp [flowNext, table], hvalid⟩, ?_⟩
  have hcut : SplayTree.Cuts (flowOrder flow) (SplayTree.inorder tt.flows) := cuts_flowOrder flow hs
  have htree : SplayTree.inorder tt.flows = pre ++ flow :: post := hflows
  have hnil : tt.flows ≠ .nil := by
    intro hnil
    rw [hnil] at htree
    simp at htree
  obtain ⟨x, l, r, hsplay, hinorder, hl, hr⟩ := SplayTree.splay_spec hnil hcut
  -- the root of the splayed tree is the flow, since no other flow is equal to it
  have hzero : flowOrder flow flow = 0 := flowOrder_zero.mpr Std.ReflCmp.compare_self
  have hleft : flow ∉ SplayTree.inorder l := fun hmem => (hl flow hmem).ne' hzero
  have hright : flow ∉ SplayTree.inorder r := fun hmem => (hr flow hmem).ne hzero
  obtain ⟨-, -, hpost⟩ :=
    (List.append_cons_inj_of_notMem hleft hright).mp (hinorder.symm.trans htree)
  unfold flowNext
  simp only [hsplay, hpost]

/-- The loop of `delete_all_flows` from some point on: the flows `fs` are still in the table. -/
theorem deleteLoop_agrees {fs : List Flow} {tt : TreeTrack} {ft : FlowTrack}
    (h : tt.Represents ft) (hinv : TableInv n ft) (hfs : ft.flows = fs) (i : ℤ) {k : ℕ}
    (hk : fs.length ≤ k) :
    Agrees (fun x ft' => x.1 = i + fs.length ∧ x.2.Represents ft' ∧ TableInv n ft' ∧ ft'.flows = [])
      (deleteLoop k tt i fs.head?) (fs.foldlM FlowTrack.deleteFlow ft) := by
  induction fs generalizing tt ft i k with
  | nil =>
    have hend : deleteLoop k tt i none = .ok (i, tt) := by cases k <;> rfl
    rw [List.head?_nil, hend]
    exact ⟨by simp, h, hinv, hfs⟩
  | cons flow fs ih =>
    obtain ⟨k, rfl⟩ : ∃ k', k = k' + 1 := ⟨k - 1, by simp only [List.length_cons] at hk; omega⟩
    have hk' : fs.length ≤ k := Nat.le_of_succ_le_succ hk
    have hflow : flow ∈ ft.flows := hfs ▸ List.mem_cons_self
    obtain ⟨e, he, -, hptr, hexp⟩ := hinv.expiryOf_eq hflow
    -- the next flow is looked for before the flow is taken out
    obtain ⟨h₁, hnext⟩ :=
      flowNext_represents h hinv.sorted_flows (hfs.trans (List.nil_append _).symm)
    rcases hcall : tt.flowNext flow with ⟨tt₁, nflow⟩
    rw [hcall] at h₁ hnext
    obtain rfl : nflow = fs.head? := hnext
    -- the flow leaves its tree, and its event the other one
    obtain ⟨tt₂, hrem, h₂⟩ := (h₁.flowRemove hinv.sorted_flows hinv.nodup_ptr hflow).expiryRemove
      hinv.nodup_expiry he
    have h₃ := h₂.mapRest (g := fun ft => { ft with numFlows := ft.numFlows - 1 }) fun _ _ _ => rfl
    have hrest : (ft.flowRemove flow.ptr).flows = fs := by
      have hnd : (([] ++ flow :: fs).map Flow.ptr).Nodup := hfs ▸ hinv.nodup_ptr
      exact (congrArg _ hfs).trans (filter_key_ne_middle hnd)
    have hinv₃ : TableInv n { (ft.flowRemove flow.ptr).expiryRemove e.ptr with
        numFlows := ft.numFlows - 1 } := hinv.unlink hflow he hptr hexp rfl rfl rfl rfl rfl
    rw [List.head?_cons, List.foldlM_cons, deleteLoop, FlowTrack.deleteFlow]
    simp only [hcall, hexp, hrem, ok_bind]
    have hcount : i + ((flow :: fs).length : ℤ) = i + 1 + fs.length := by
      rw [List.length_cons]
      push_cast
      ring
    rw [hcount]
    exact ih h₃ hinv₃ hrest (i + 1) hk'

/-- `delete_all_flows`. It leaves an empty table. -/
theorem deleteAllFlows_agrees (h : tt.Represents ft) (hinv : TableInv n ft) {k : ℕ}
    (hk : ft.flows.length ≤ k) :
    Agrees (fun x y => x.1 = y.1 ∧ x.2.Represents y.2 ∧ TableInv n y.2 ∧ y.2.flows = [])
      (tt.deleteAllFlows k) ft.deleteAllFlows := by
  obtain ⟨h₁, hmin⟩ := flowMin_represents h
  unfold deleteAllFlows FlowTrack.deleteAllFlows
  rcases hcall : tt.flowMin with ⟨tt₁, flow⟩
  rw [hcall] at h₁ hmin
  obtain rfl : flow = ft.flows.head? := hmin
  have hloop := deleteLoop_agrees h₁ hinv rfl 0 hk
  rw [zero_add] at hloop
  simp only
  rw [← bind_pure (deleteLoop k tt₁ 0 ft.flows.head?)]
  exact hloop.bind fun _ _ _ _ hab => hab

end TreeTrack

end Softflowd
