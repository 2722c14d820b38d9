import NetworkMonitoring.Softflowd.EmulatorStep

/-!
# softflowd — the pointers between the two trees

`PointerInv ft` is the part of the table invariant that does not depend on the sequence numbers,
so it holds in every run of emulator messages, however long: keys and addresses are distinct, and
every expiry event points at a flow of its own. What it gives up is that every flow has an event
in the expiry tree.

* `EmulatorStep.pointerInv`: a message that is processed successfully keeps it;
* `PointerInv.scanExpired`: the scan of `check_expired` hands on the flows of the events that are
  due, in the order of the events.
-/

namespace Softflowd

open ErrorLoops Function OrderedSet

/-- Addresses and keys are distinct, and every expiry event points at a flow of its own. -/
structure PointerInv (ft : FlowTrack) : Prop where
  nodup_key : (ft.flows.map Flow.key).Nodup
  nodup_ptr : (ft.flows.map Flow.ptr).Nodup
  nodup_expiry : (ft.expiries.map Expiry.ptr).Nodup
  nodup_flow : (ft.expiries.map Expiry.flow).Nodup
  flow_mem : ∀ e ∈ ft.expiries, e.flow ∈ ft.flows.map Flow.ptr
  ptr_lt : ∀ p ∈ ft.flows.map Flow.ptr, p < ft.nextPtr
  expiry_lt : ∀ e ∈ ft.expiries, e.ptr < ft.nextPtr

namespace PointerInv

variable {ft ft' : FlowTrack} {f f' : Flow} {e : Expiry} {p : ℕ}

theorem empty (hf : ft.flows = []) (he : ft.expiries = []) : PointerInv ft := by
  constructor <;> simp [hf, he]

/-- The invariant only looks at the identities of the flows. -/
theorem of_ident (h : PointerInv ft) (hf : ft'.flows.map Flow.ident = ft.flows.map Flow.ident)
    (he : ft'.expiries = ft.expiries) (hp : ft'.nextPtr = ft.nextPtr) : PointerInv ft' := by
  have hkey : ft'.flows.map Flow.key = ft.flows.map Flow.key := by
    simpa [List.map_map, Function.comp_def, Flow.ident] using
      congrArg (List.map fun x => x.2.2.2) hf
  have hptr : ft'.flows.map Flow.ptr = ft.flows.map Flow.ptr := by
    simpa [List.map_map, Function.comp_def, Flow.ident] using congrArg (List.map Prod.fst) hf
  exact ⟨hkey ▸ h.nodup_key, hptr ▸ h.nodup_ptr, he ▸ h.nodup_expiry, he ▸ h.nodup_flow,
    hptr ▸ he ▸ h.flow_mem, hptr ▸ hp ▸ h.ptr_lt, he ▸ hp ▸ h.expiry_lt⟩

theorem of_table (h : PointerInv ft) (heq : ft'.table = ft.table) : PointerInv ft' := by
  simp only [FlowTrack.table, Prod.mk.injEq] at heq
  exact h.of_ident (congrArg _ heq.1) heq.2.1 heq.2.2.2.2

theorem eq_of_ptr (h : PointerInv ft) (hf : f ∈ ft.flows) (hf' : f' ∈ ft.flows)
    (heq : f.ptr = f'.ptr) : f = f' :=
  List.inj_on_of_nodup_map h.nodup_ptr hf hf' heq

theorem eq_of_key (h : PointerInv ft) (hf : f ∈ ft.flows) (hf' : f' ∈ ft.flows)
    (heq : f.key = f'.key) : f = f' :=
  List.inj_on_of_nodup_map h.nodup_key hf hf' heq

theorem flowAt_eq (h : PointerInv ft) (hf : f ∈ ft.flows) : ft.flowAt f.ptr = some f :=
  find?_key_eq h.nodup_ptr hf

/-- Replacing a flow by one with the same identity. -/
theorem replaceFlow (h : PointerInv ft) (hf : f ∈ ft.flows) (hid : f'.ident = f.ident) :
    PointerInv (ft.modifyFlow f.ptr fun _ => f') := by
  refine h.of_ident ?_ rfl rfl
  rw [FlowTrack.modifyFlow, List.map_map]
  refine List.map_congr_left fun g hg => ?_
  by_cases hp : g.ptr = f.ptr
  · obtain rfl := h.eq_of_ptr hg hf hp
    simpa using hid
  · simp [hp]

/-- Taking an event out of the tree and putting it in with another key; the new key may clash with
that of another event, and then it is not in the tree any more. -/
theorem reinsert (h : PointerInv ft) (hflow : e.flow ∈ ft.flows.map Flow.ptr)
    (hptr : e.ptr < ft.nextPtr) (hone : ∀ x ∈ ft.expiries, x.flow = e.flow → x.ptr = e.ptr)
    (t : UInt32) (r : Reason) : PointerInv (ft.rekey e t r) := by
  set rest := ft.expiries.filter fun x => x.ptr != e.ptr with hrest
  have hsub : rest.Sublist ft.expiries := List.filter_sublist
  have hrestMem : ∀ x ∈ rest, x ∈ ft.expiries ∧ x.ptr ≠ e.ptr := fun x hx => by
    simpa using List.mem_filter.mp hx
  have hptrs : (e.ptr :: rest.map Expiry.ptr).Nodup := by
    rw [List.nodup_cons]
    refine ⟨fun hin => ?_, h.nodup_expiry.sublist (hsub.map _)⟩
    obtain ⟨x, hx, heq⟩ := List.mem_map.mp hin
    exact (hrestMem x hx).2 heq
  have hflows : (e.flow :: rest.map Expiry.flow).Nodup := by
    rw [List.nodup_cons]
    refine ⟨fun hin => ?_, h.nodup_flow.sublist (hsub.map _)⟩
    obtain ⟨x, hx, heq⟩ := List.mem_map.mp hin
    exact (hrestMem x hx).2 (hone x (hrestMem x hx).1 heq)
  -- the tree keeps the event that stands at the new key
  rcases insert_perm_or_eq (expiryCompare ft.flows) { e with expiresAt := t, reason := r } rest with
    hins | hins
  · refine ⟨h.nodup_key, h.nodup_ptr, ?_, ?_, ?_, h.ptr_lt, ?_⟩
    · exact (hins.map Expiry.ptr).nodup_iff.mpr hptrs
    · exact (hins.map Expiry.flow).nodup_iff.mpr hflows
    · intro x hx
      rcases List.mem_cons.mp (hins.subset hx) with rfl | hx
      · exact hflow
      · exact h.flow_mem x (hrestMem x hx).1
    · intro x hx
      rcases List.mem_cons.mp (hins.subset hx) with rfl | hx
      · exact hptr
      · exact h.expiry_lt x (hrestMem x hx).1
  · have hexp : (ft.rekey e t r).expiries = rest := hins
    refine ⟨h.nodup_key, h.nodup_ptr, ?_, ?_, ?_, h.ptr_lt, ?_⟩ <;> rw [hexp]
    · exact (List.nodup_cons.mp hptrs).2
    · exact (List.nodup_cons.mp hflows).2
    · exact fun x hx => h.flow_mem x (hrestMem x hx).1
    · exact fun x hx => h.expiry_lt x (hrestMem x hx).1

/-- Rescheduling an event of the tree. -/
theorem rekey (h : PointerInv ft) (he : e ∈ ft.expiries) (t : UInt32) (r : Reason) :
    PointerInv (ft.rekey e t r) := by
  refine h.reinsert (h.flow_mem e he) (h.expiry_lt e he) (fun x hx heq => ?_) t r
  rw [List.inj_on_of_nodup_map h.nodup_flow hx he heq]

/-- A new flow with an expiry event that finds a place in the tree, or does not. -/
theorem insert (h : PointerInv ft) (hnext : ft'.nextPtr = ft.nextPtr + 2)
    (hperm : ft'.flows.Perm (f :: ft.flows)) (hfresh : f.ptr = ft.nextPtr)
    (hkey : ∀ g ∈ ft.flows, flowCompare f g ≠ .eq)
    (hexp : ft'.expiries.Perm (ft.createdExpiry :: ft.expiries) ∨ ft'.expiries = ft.expiries) :
    PointerInv ft' := by
  -- no flow of the table has this key, and the next address is above all others
  have hkeys : ((f :: ft.flows).map Flow.key).Nodup := by
    rw [List.map_cons, List.nodup_cons]
    refine ⟨fun hin => ?_, h.nodup_key⟩
    obtain ⟨g, hg, hk⟩ := List.mem_map.mp hin
    exact hkey g hg (flowCompare_eq_iff.mpr hk.symm)
  have hptrs : ((f :: ft.flows).map Flow.ptr).Nodup := by
    rw [List.map_cons, List.nodup_cons, hfresh]
    exact ⟨fun hin => Nat.lt_irrefl _ (h.ptr_lt _ hin), h.nodup_ptr⟩
  have hptr := hperm.map Flow.ptr
  have hmem : ∀ q ∈ ft.flows.map Flow.ptr, q ∈ ft'.flows.map Flow.ptr := fun q hq =>
    hptr.symm.subset (List.mem_cons_of_mem _ hq)
  have hlt : ∀ q ∈ ft'.flows.map Flow.ptr, q < ft'.nextPtr := by
    intro q hq
    rw [hnext]
    rcases List.mem_cons.mp (hptr.subset hq) with rfl | hq
    · rw [hfresh]
      exact Nat.lt_add_of_pos_right (by decide)
    · exact Nat.lt_add_right 2 (h.ptr_lt q hq)
  have hold : ∀ e ∈ ft.expiries, e.flow ∈ ft'.flows.map Flow.ptr ∧ e.ptr < ft'.nextPtr :=
    fun e he => ⟨hmem _ (h.flow_mem e he), hnext ▸ Nat.lt_add_right 2 (h.expiry_lt e he)⟩
  have hkey := (hperm.map Flow.key).nodup_iff.mpr hkeys
  -- the new event is in the tree, or one with its key was there already
  rcases hexp with hexp | hexp
  · have hnew : ft.createdExpiry.flow ∈ ft'.flows.map Flow.ptr ∧
        ft.createdExpiry.ptr < ft'.nextPtr := by
      refine ⟨hptr.symm.subset ?_, ?_⟩
      · rw [List.map_cons, hfresh]
        exact List.mem_cons_self
      · rw [hnext]
        exact Nat.lt_succ_self _
    have hall : ∀ e ∈ ft'.expiries, e.flow ∈ ft'.flows.map Flow.ptr ∧ e.ptr < ft'.nextPtr := by
      intro e he
      rcases List.mem_cons.mp (hexp.subset he) with rfl | he
      · exact hnew
      · exact hold e he
    refine ⟨hkey, hptr.nodup_iff.mpr hptrs, ?_, ?_, fun e he => (hall e he).1, hlt,
      fun e he => (hall e he).2⟩
    · rw [(hexp.map Expiry.ptr).nodup_iff, List.map_cons, List.nodup_cons]
      refine ⟨fun hin => ?_, h.nodup_expiry⟩
      obtain ⟨e, he, hp⟩ := List.mem_map.mp hin
      have hlt := h.expiry_lt e he
      have hp' : e.ptr = ft.nextPtr + 1 := hp
      omega
    · rw [(hexp.map Expiry.flow).nodup_iff, List.map_cons, List.nodup_cons]
      refine ⟨fun hin => ?_, h.nodup_flow⟩
      obtain ⟨e, he, hp⟩ := List.mem_map.mp hin
      exact Nat.lt_irrefl _ (hp ▸ h.ptr_lt _ (h.flow_mem e he))
  · refine ⟨hkey, hptr.nodup_iff.mpr hptrs, ?_, ?_, ?_, hlt, ?_⟩ <;> rw [hexp]
    · exact h.nodup_expiry
    · exact h.nodup_flow
    · exact fun e he => (hold e he).1
    · exact fun e he => (hold e he).2

/-- A new flow, when no flow of the table has its key. -/
theorem createFlow {tmp : Flow} {t : Timeval} {alloc : Alloc} (h : PointerInv ft)
    (hfind : ft.flowFind tmp = none)
    (hcreate : ft.createFlow (tmp.stamp t) alloc = (ft', some p)) :
    p = ft.nextPtr ∧ PointerInv ft' ∧
      ft'.flows.Perm (ft.createdFlow (tmp.stamp t) :: ft.flows) ∧
      ft'.trackLevel = ft.trackLevel := by
  have hkey : ∀ f ∈ ft.flows, flowCompare (tmp.stamp t) f ≠ .eq := find_eq_none hfind
  have hperm : (OrderedSet.insert flowCompare (ft.createdFlow (tmp.stamp t)) ft.flows).Perm
      (ft.createdFlow (tmp.stamp t) :: ft.flows) := insert_perm hkey
  unfold FlowTrack.createFlow at hcreate
  split at hcreate
  · cases hcreate
  · split at hcreate
    · cases hcreate
    · obtain ⟨rfl, hp⟩ := Prod.mk.inj hcreate
      refine ⟨(Option.some.inj hp).symm, ?_, hperm, rfl⟩
      exact h.insert rfl hperm rfl hkey (insert_perm_or_eq _ _ _)

/-- Taking out the flow of an event. -/
theorem expireFlow (h : PointerInv ft) (he : e ∈ ft.expiries) (ex : ExpireMode) :
    ∃ f ∈ ft.flows, f.ptr = e.flow ∧ ft.flowAt e.flow = some f ∧
      PointerInv (ft.expireFlow f e ex) := by
  obtain ⟨f, hf, hptr⟩ := List.mem_map.mp (h.flow_mem e he)
  refine ⟨f, hf, hptr, hptr ▸ h.flowAt_eq hf, ?_⟩
  have hflows : (ft.expireFlow f e ex).flows.Sublist ft.flows := List.filter_sublist
  have hexp : (ft.expireFlow f e ex).expiries.Sublist ft.expiries := List.filter_sublist
  refine ⟨h.nodup_key.sublist (hflows.map _), h.nodup_ptr.sublist (hflows.map _),
    h.nodup_expiry.sublist (hexp.map _), h.nodup_flow.sublist (hexp.map _), ?_, ?_, ?_⟩
  · intro x hx
    obtain ⟨hx, hne⟩ := List.mem_filter.mp hx
    obtain ⟨g, hg, hgx⟩ := List.mem_map.mp (h.flow_mem x hx)
    refine List.mem_map.mpr ⟨g, List.mem_filter.mpr ⟨hg, ?_⟩, hgx⟩
    -- two events of one flow are the same event
    have hgf : g.ptr ≠ f.ptr := by
      intro heq
      have hxe : x = e := List.inj_on_of_nodup_map h.nodup_flow hx he
        (hgx.symm.trans (heq.trans hptr))
      simp [hxe] at hne
    simpa using hgf
  · exact fun q hq => h.ptr_lt q ((hflows.map _).subset hq)
  · exact fun x hx => h.expiry_lt x (hexp.subset hx)

end PointerInv

/-! ## Messages -/

/-- A message that is processed successfully. -/
theorem EmulatorStep.pointerInv {s s' : Tracker} {c : EmulatorCall}
    (hstep : EmulatorStep s c .ok s') (h : PointerInv s.ft) : PointerInv s'.ft := by
  have hc : ∀ frag, PointerInv (s.ft.counted frag) := fun frag =>
    h.of_table (s.ft.table_counted frag)
  cases hstep with
  | created _ hfind hcreate =>
    obtain ⟨rfl, h', -⟩ := (hc _).createFlow hfind hcreate
    refine h'.of_ident ?_ rfl rfl
    rw [FlowTrack.modifyFlow, List.map_map]
    refine List.map_congr_left fun f _ => ?_
    simp only [Function.comp]
    split <;> rfl
  | ignored => exact hc _
  | @updated tmp frag ndx flow _ _ _ _ flow' last ft _ hfind _ _ _ _ _ hcount _ _ hupd =>
    obtain ⟨hflow, -⟩ := find_eq_some hfind
    have hid := (c.ident_settle last ((s.ft.counted frag).maskRecord tmp) ndx flow').trans
      (ident_of_countMonitor hcount)
    have h' := (hc frag).replaceFlow hflow hid
    -- the flow keeps its identity, and its event moves to another time
    obtain ⟨_, _, -, hof, rfl⟩ := FlowTrack.flowUpdateExpiry_eq_ok.mp hupd
    exact h'.rekey (FlowTrack.mem_of_expiryOf hof) _ _

/-! ## The expiry scan -/

/-- The flows of the events that are due, in the order of the events, as far as the array
`expired_flows` can grow. -/
def expiredFlows (now : Timeval) (ex : ExpireMode) (reallocOk : Expiry → Bool) (ft : FlowTrack) :
    List Flow :=
  (ft.expiries.filter fun e => e.isDue now ex && reallocOk e).filterMap fun e => ft.flowAt e.flow

theorem FlowTrack.flowAt_expireFlow {ft : FlowTrack} {f : Flow} {e : Expiry} {ex : ExpireMode}
    {p : ℕ} (hne : p ≠ f.ptr) : (ft.expireFlow f e ex).flowAt p = ft.flowAt p := by
  have hflows : (ft.expireFlow f e ex).flows = ft.flows.filter fun g => g.ptr != f.ptr := rfl
  unfold FlowTrack.flowAt
  rw [hflows, List.find?_filter]
  congr 1
  ext g
  by_cases hg : g.ptr = p
  · simp [hg, hne]
  · simp [hg]

/-- The scan from some point on: the events `es` are still to be visited, and `look` finds their
flows. -/
theorem PointerInv.foldlM_scanStep (now : Timeval) (ex : ExpireMode) (reallocOk : Expiry → Bool)
    (look : ℕ → Option Flow) (es : List Expiry) {ft : FlowTrack} (acc : List Flow)
    (h : PointerInv ft) (hnd : (es.map Expiry.flow).Nodup) (hes : ∀ e ∈ es, e ∈ ft.expiries)
    (hlook : ∀ e ∈ es, ft.flowAt e.flow = look e.flow) :
    ∃ ft', es.foldlM (scanStep now ex reallocOk) (ft, acc) = .ok (ft', acc ++
        ((es.filter fun e => e.isDue now ex && reallocOk e).filterMap fun e => look e.flow).map
          Flow.retire) ∧
      ft'.systemBootTime = ft.systemBootTime := by
  induction es generalizing ft acc with
  | nil => exact ⟨ft, by simp [pure, Except.pure], rfl⟩
  | cons e es ih =>
    rw [List.map_cons, List.nodup_cons] at hnd
    have hes' : ∀ x ∈ es, x ∈ ft.expiries := fun x hx => hes x (List.mem_cons_of_mem e hx)
    have hlook' : ∀ x ∈ es, ft.flowAt x.flow = look x.flow := fun x hx =>
      hlook x (List.mem_cons_of_mem e hx)
    rw [List.foldlM_cons]
    by_cases hdue : e.isDue now ex = true
    · obtain ⟨f, -, hptr, hat, h'⟩ := h.expireFlow (hes e List.mem_cons_self) ex
      -- no other event points at this flow, so the rest of the scan does not miss it
      have hother : ∀ x ∈ es, x.flow ≠ e.flow := fun x hx heq =>
        hnd.1 (heq ▸ List.mem_map_of_mem hx)
      have hstep : scanStep now ex reallocOk (ft, acc) e = .ok (ft.expireFlow f e ex,
          if reallocOk e then acc ++ [f.retire] else acc) := by
        unfold scanStep
        rw [if_pos hdue, hat]
      have hrest : ∀ x ∈ es, x ∈ (ft.expireFlow f e ex).expiries := by
        intro x hx
        refine List.mem_filter.mpr ⟨hes' x hx, ?_⟩
        have hne : x.ptr ≠ e.ptr := by
          intro heq
          have hxe := List.inj_on_of_nodup_map h.nodup_expiry (hes' x hx)
            (hes e List.mem_cons_self) heq
          exact hother x hx (congrArg Expiry.flow hxe)
        simpa using hne
      have hfind : ∀ x ∈ es, (ft.expireFlow f e ex).flowAt x.flow = look x.flow := by
        intro x hx
        rw [FlowTrack.flowAt_expireFlow (hptr ▸ hother x hx), hlook' x hx]
      obtain ⟨ft', hfold, hboot⟩ := ih (if reallocOk e then acc ++ [f.retire] else acc) h' hnd.2
        hrest hfind
      refine ⟨ft', ?_, hboot⟩
      rw [hstep]
      apply hfold.trans
      have hlooke : look e.flow = some f := (hlook e List.mem_cons_self).symm.trans hat
      cases hok : reallocOk e <;> simp [hdue, hok, hlooke]
    · have hstep : scanStep now ex reallocOk (ft, acc) e = .ok (ft, acc) := if_neg hdue
      obtain ⟨ft', hfold, hboot⟩ := ih acc h hnd.2 hes' hlook'
      refine ⟨ft', ?_, hboot⟩
      rw [hstep]
      apply hfold.trans
      simp [hdue]

/-- The scan of `check_expired`. -/
theorem PointerInv.scanExpired {ft : FlowTrack} (h : PointerInv ft) (now : Timeval)
    (ex : ExpireMode) (reallocOk : Expiry → Bool) :
    ∃ ft', scanExpired now ex reallocOk ft =
        .ok (ft', (expiredFlows now ex reallocOk ft).map Flow.retire) ∧
      ft'.systemBootTime = ft.systemBootTime :=
  h.foldlM_scanStep now ex reallocOk ft.flowAt ft.expiries [] h.nodup_flow (fun _ he => he)
    fun _ _ => rfl

end Softflowd
