import NetworkMonitoring.Foundations.Refinement
import NetworkMonitoring.Softflowd.Runs
import NetworkMonitoring.Softflowd.Trees

/-!
# softflowd — the trees are ordered sets

The functions on the trees compute what the functions on the lists of their nodes compute, as long
as the flow table is consistent. No tree operation follows a link that is not there, the loops over
the trees end, and the red-black tree keeps its colours.

## Main results

* `TreeTrack.Represents`: the trees hold the nodes of a table;
* `processPacket_agrees`, `processEmulatorPacket_agrees` and what they rest on: each function on the
  trees gives what the one on the lists gives.
-/

namespace Softflowd

open ErrorLoops Function InetText OrderedSet
open RedBlackTree (Valid)

/-! ## The splay tree -/

theorem flowOrder_neg {f g : Flow} : flowOrder f g < 0 ↔ flowCompare f g = .lt := by
  unfold flowOrder
  cases flowCompare f g <;> decide

theorem flowOrder_pos {f g : Flow} : 0 < flowOrder f g ↔ flowCompare f g = .gt := by
  unfold flowOrder
  cases flowCompare f g <;> decide

theorem flowOrder_zero {f g : Flow} : flowOrder f g = 0 ↔ flowCompare f g = .eq := by
  unfold flowOrder
  cases flowCompare f g <;> decide

/-- A flow asked for cuts a sorted list of flows. -/
theorem cuts_flowOrder (tmp : Flow) {flows : List Flow} (h : Sorted flowCompare flows) :
    SplayTree.Cuts (flowOrder tmp) flows := by
  refine h.imp fun {f g} hfg hle => flowOrder_neg.mpr ?_
  cases hcmp : flowCompare tmp f with
  | lt => exact Std.TransCmp.lt_trans hcmp hfg
  | eq => exact (Std.TransCmp.congr_left hcmp).trans hfg
  | gt => exact absurd (flowOrder_pos.mpr hcmp) (Int.not_lt.mpr hle)

/-- The flow that is found is the only one with the key. -/
theorem flowFind_eq_some {ft : FlowTrack} (hs : Sorted flowCompare ft.flows) {tmp flow : Flow} :
    ft.flowFind tmp = some flow ↔ flow ∈ ft.flows ∧ flowCompare tmp flow = .eq := by
  refine ⟨find_eq_some, fun ⟨hmem, heq⟩ => ?_⟩
  cases hfind : ft.flowFind tmp with
  | none => exact absurd heq (find_eq_none hfind flow hmem)
  | some flow' =>
    obtain ⟨hmem', heq'⟩ := find_eq_some hfind
    have hkeys : (ft.flows.map Flow.key).Nodup := by
      refine List.pairwise_map.mpr (hs.imp fun hlt hkey => ?_)
      rw [flowCompare_eq_iff.mpr hkey] at hlt
      cases hlt
    have hkey : flow'.key = flow.key :=
      (flowCompare_eq_iff.mp heq').symm.trans (flowCompare_eq_iff.mp heq)
    rw [List.inj_on_of_nodup_map hkeys hmem' hmem hkey]

theorem inorder_map (g : Flow → Flow) (t : BinaryTree Flow) :
    SplayTree.inorder (t.map g) = (SplayTree.inorder t).map g := by
  induction t with
  | nil => rfl
  | node x l r ihl ihr => simp [BinaryTree.map, ihl, ihr]

namespace TreeTrack

/-- The trees hold the nodes of a table, and the red-black tree has its colours right. -/
structure Represents (tt : TreeTrack) (ft : FlowTrack) : Prop where
  table_eq : tt.table = ft
  valid : Valid tt.expiries

variable {tt tt' : TreeTrack} {ft : FlowTrack} {n : ℕ}

namespace Represents

theorem flows_eq (h : tt.Represents ft) : SplayTree.inorder tt.flows = ft.flows :=
  congrArg FlowTrack.flows h.table_eq

theorem expiries_eq (h : tt.Represents ft) : tt.expiries.inorder = ft.expiries :=
  congrArg FlowTrack.expiries h.table_eq

/-- Writing to the fields outside the trees. -/
theorem mapRest (h : tt.Represents ft) {g : FlowTrack → FlowTrack}
    (hg : ∀ ft fs es, g { ft with flows := fs, expiries := es } =
      { g ft with flows := fs, expiries := es }) :
    Represents { tt with rest := g tt.rest } (g ft) := by
  obtain ⟨rfl, hvalid⟩ := h
  exact ⟨(hg tt.rest _ _).symm, hvalid⟩

/-- A search splays the tree, and finds what the ordered set has. -/
theorem flowFind (h : tt.Represents ft) (hs : Sorted flowCompare ft.flows) (tmp : Flow) :
    (tt.flowFind tmp).1.Represents ft ∧ (tt.flowFind tmp).2 = ft.flowFind tmp := by
  have hflows := h.flows_eq
  refine ⟨⟨?_, h.valid⟩, ?_⟩
  · rw [← h.table_eq]
    simp [TreeTrack.flowFind, table]
  · have hcut : SplayTree.Cuts (flowOrder tmp) (SplayTree.inorder tt.flows) := by
      rw [hflows]
      exact cuts_flowOrder tmp hs
    have hfind : (tt.flowFind tmp).2 = (SplayTree.find (flowOrder tmp) tt.flows).2 := rfl
    rw [hfind]
    cases hfound : (SplayTree.find (flowOrder tmp) tt.flows).2 with
    | none =>
      have hnone := SplayTree.find_none hcut hfound
      rw [hflows] at hnone
      refine (List.find?_eq_none.mpr fun f hf => ?_).symm
      have := hnone f hf
      simpa [flowOrder_zero] using this
    | some flow =>
      obtain ⟨hmem, hzero⟩ := SplayTree.find_some hfound
      rw [hflows] at hmem
      exact ((flowFind_eq_some hs).mpr ⟨hmem, flowOrder_zero.mp hzero⟩).symm

/-- Inserting a flow. -/
theorem flowInsert (h : tt.Represents ft) (hs : Sorted flowCompare ft.flows) (flow : Flow)
    (hnew : ∀ f ∈ ft.flows, flowCompare flow f ≠ .eq) :
    (tt.flowInsert flow).Represents (ft.flowInsert flow) := by
  have hcut : SplayTree.Cuts (flowOrder flow) (SplayTree.inorder tt.flows) := by
    rw [h.flows_eq]
    exact cuts_flowOrder flow hs
  have hnew' : ∀ f ∈ SplayTree.inorder tt.flows, flowOrder flow f ≠ 0 := by
    rw [h.flows_eq]
    exact fun f hf hzero => hnew f hf (flowOrder_zero.mp hzero)
  obtain ⟨pre, post, htree, hins, hpre, hpost⟩ := SplayTree.inorder_insert hcut hnew' flow
  refine ⟨?_, h.valid⟩
  have hflows : SplayTree.inorder (tt.flowInsert flow).flows =
      OrderedSet.insert flowCompare flow ft.flows := by
    rw [← h.flows_eq, htree, insert_between (fun f hf => flowOrder_pos.mp (hpre f hf))
      fun f hf => flowOrder_neg.mp (hpost f hf)]
    exact hins
  rw [table, hflows, ← h.table_eq]
  rfl

/-- Removing a flow of the table. -/
theorem flowRemove (h : tt.Represents ft) (hs : Sorted flowCompare ft.flows)
    (hnd : (ft.flows.map Flow.ptr).Nodup) {flow : Flow} (hf : flow ∈ ft.flows) :
    (tt.flowRemove flow).Represents (ft.flowRemove flow.ptr) := by
  have hcut : SplayTree.Cuts (flowOrder flow) (SplayTree.inorder tt.flows) := by
    rw [h.flows_eq]
    exact cuts_flowOrder flow hs
  have hmem : flow ∈ SplayTree.inorder tt.flows := h.flows_eq ▸ hf
  obtain ⟨pre, post, htree, hrem⟩ := SplayTree.inorder_remove hcut hmem
    (flowOrder_zero.mpr Std.ReflCmp.compare_self)
  refine ⟨?_, h.valid⟩
  have hflows : SplayTree.inorder (tt.flowRemove flow).flows =
      ft.flows.filter fun f => f.ptr != flow.ptr := by
    rw [← h.flows_eq, htree] at hnd ⊢
    exact hrem.trans (filter_key_ne_middle hnd).symm
  rw [table, hflows, ← h.table_eq]
  rfl

/-- Writing to a flow. -/
theorem modifyFlow (h : tt.Represents ft) (p : ℕ) (g : Flow → Flow) :
    (tt.modifyFlow p g).Represents (ft.modifyFlow p g) := by
  refine ⟨?_, h.valid⟩
  rw [← h.table_eq, table, TreeTrack.modifyFlow, inorder_map]
  rfl

/-! ## The red-black tree -/

/-- Inserting an expiry event. -/
theorem expiryInsert (h : tt.Represents ft) (hs : Sorted (expiryCompare ft.flows) ft.expiries)
    (e : Expiry) : ∃ tt', tt.expiryInsert e = .ok tt' ∧ tt'.Represents (ft.expiryInsert e) := by
  obtain ⟨rfl, hvalid⟩ := h
  obtain ⟨expiries, old, hins, hvalid'⟩ :=
    RedBlackTree.insert_balanced (expiryCompare tt.table.flows) e hvalid
  refine ⟨{ tt with expiries := expiries }, ?_, ?_, hvalid'⟩
  · rw [TreeTrack.expiryInsert, hins]
  · obtain ⟨hinorder, -⟩ := RedBlackTree.inorder_insert hs hins
    rw [table, hinorder]
    rfl

/-- Removing an expiry event of the table. -/
theorem expiryRemove (h : tt.Represents ft) (hnd : (ft.expiries.map Expiry.ptr).Nodup) {e : Expiry}
    (he : e ∈ ft.expiries) :
    ∃ tt', tt.expiryRemove e.ptr = .ok tt' ∧ tt'.Represents (ft.expiryRemove e.ptr) := by
  obtain ⟨rfl, hvalid⟩ := h
  obtain ⟨expiries, hrem, hvalid'⟩ :=
    RedBlackTree.remove_balanced (p := fun x => x.ptr == e.ptr) hvalid ⟨e, he, by simp⟩
  refine ⟨{ tt with expiries := expiries }, ?_, ?_, hvalid'⟩
  · rw [TreeTrack.expiryRemove, hrem]
  · have hinorder : expiries.inorder = tt.table.expiries.filter fun x => x.ptr != e.ptr :=
      (RedBlackTree.inorder_remove hrem).trans (eraseP_key_eq hnd he)
    rw [table, hinorder]
    rfl

/-- Rescheduling an expiry event of the table. -/
theorem rekey (h : tt.Represents ft) (hinv : TableInv n ft) {e : Expiry} (he : e ∈ ft.expiries)
    (t : UInt32) (r : Reason) :
    ∃ tt', tt.rekey e t r = .ok tt' ∧ tt'.Represents (ft.rekey e t r) := by
  obtain ⟨tt₁, hrem, h₁⟩ := h.expiryRemove hinv.nodup_expiry he
  obtain ⟨tt₂, hins, h₂⟩ := h₁.expiryInsert (hinv.sorted_expiries.filter _)
    { e with expiresAt := t, reason := r }
  refine ⟨tt₂, ?_, h₂⟩
  rw [TreeTrack.rekey, hrem]
  exact hins

end Represents

/-! ## Packets -/

/-- `flow_update_expiry`. -/
theorem flowUpdateExpiry_agrees (h : tt.Represents ft) (hinv : TableInv n ft) (p : ℕ) :
    Agrees Represents (tt.flowUpdateExpiry p) (ft.flowUpdateExpiry p) := by
  obtain ⟨rfl, hvalid⟩ := id h
  unfold flowUpdateExpiry FlowTrack.flowUpdateExpiry
  cases tt.table.flowAt p with
  | none => exact .of_error _
  | some flow =>
    dsimp only
    cases hof : tt.table.expiryOf flow with
    | none => exact .of_error _
    | some e =>
      obtain ⟨tt', hrekey, h'⟩ := h.rekey hinv (FlowTrack.mem_of_expiryOf hof)
        (tt.rest.newExpiry flow).1 (tt.rest.newExpiry flow).2
      dsimp only
      rw [hrekey]
      exact h'

/-- Creating a flow, when no flow of the table has its key. An allocation may fail. -/
theorem createFlow_represents (h : tt.Represents ft) (hinv : TableInv n ft) (hn : n < 2 ^ 64)
    (tmp : Flow) (hkey : ∀ f ∈ ft.flows, flowCompare tmp f ≠ .eq) (alloc : Alloc) :
    ∃ tt', tt.createFlow tmp alloc = .ok (tt', (ft.createFlow tmp alloc).2) ∧
      tt'.Represents (ft.createFlow tmp alloc).1 ∧
      ((ft.createFlow tmp alloc).2.isSome → TableInv (n + 1) (ft.createFlow tmp alloc).1) := by
  obtain ⟨rfl, hvalid⟩ := id h
  obtain ⟨allocFlow, allocExpiry⟩ := alloc
  cases allocFlow with
  | false => exact ⟨tt, rfl, h, fun hsome => by cases hsome⟩
  | true =>
    have hrest := h.mapRest (g := fun ft => { ft with
      nextFlowSeq := ft.nextFlowSeq + 1, nextPtr := ft.nextPtr + 2 }) fun _ _ _ => rfl
    cases allocExpiry with
    | false =>
      exact ⟨_, rfl, hrest.flowInsert hinv.sorted_flows _ hkey, fun hsome => by cases hsome⟩
    | true =>
      have hflow := hrest.flowInsert hinv.sorted_flows
        { tmp with
          ptr := tt.rest.nextPtr
          flowSeq := tt.rest.nextFlowSeq
          expiry := some (tt.rest.nextPtr + 1) } hkey
      -- the other events are in order, since they are with the new one among them
      obtain ⟨ft', hcreate, hinv', -, -⟩ := hinv.createFlow hn tmp hkey
      obtain rfl : (tt.table.createFlow tmp {}).1 = ft' := congrArg Prod.fst hcreate
      have hevents := List.Pairwise.sublist (sublist_insert _ _ _) hinv'.sorted_expiries
      obtain ⟨tt', hins, h'⟩ := hflow.expiryInsert hevents
        { ptr := tt.rest.nextPtr + 1, flow := tt.rest.nextPtr, expiresAt := 1, reason := .general }
      refine ⟨_, ?_, h'.mapRest (g := fun ft => { ft with numFlows := ft.numFlows + 1 })
        fun _ _ _ => rfl, fun _ => hinv'⟩
      exact congrArg (fun x => x >>= fun tt' : TreeTrack =>
        (.ok ({ tt' with rest := { tt'.rest with numFlows := tt'.rest.numFlows + 1 } },
          some tt.rest.nextPtr) : Except Fault (TreeTrack × Option ℕ))) hins

/-- The end of `process_packet`. -/
theorem touchFlow_agrees (h : tt.Represents ft) (hinv : TableInv n ft) (p : ℕ)
    (received : Timeval) :
    Agrees Represents (tt.touchFlow p received) (ft.touchFlow p received) := by
  set g : Flow → Flow := fun f => { f with flowLast := received } with hg
  have h₁ := h.modifyFlow p g
  have hinv₁ : TableInv n (ft.modifyFlow p g) := hinv.modifyFlow fun _ _ _ => rfl
  unfold touchFlow FlowTrack.touchFlow
  simp only [← hg, h₁.table_eq]
  cases hat : ((ft.modifyFlow p g).flowAt p).bind (ft.modifyFlow p g).expiryOf with
  | none => exact .of_error _
  | some e =>
    dsimp only
    split
    · exact flowUpdateExpiry_agrees h₁ hinv₁ p
    · exact h₁

/-- The results of `process_packet` and of the functions it is made of. -/
def SameResult (x : PpResult × TreeTrack) (y : PpResult × FlowTrack) : Prop :=
  x.1 = y.1 ∧ x.2.Represents y.2

/-- Filing a record. -/
theorem fileRecord_agrees (h : tt.Represents ft) (hinv : TableInv n ft) (hn : n < 2 ^ 64)
    (tmp : Flow) (alloc : Alloc) (received : Timeval) :
    Agrees SameResult (tt.fileRecord tmp alloc received) (ft.fileRecord tmp alloc received) := by
  have htouch {tt' : TreeTrack} {ft' : FlowTrack} {n' : ℕ} (p : ℕ) (h' : tt'.Represents ft')
      (hinv' : TableInv n' ft') : Agrees SameResult
        (do return (.ok, ← tt'.touchFlow p received))
        (do return (.ok, ← ft'.touchFlow p received)) :=
    (touchFlow_agrees h' hinv' p received).bind fun _ _ _ _ hab => ⟨rfl, hab⟩
  obtain ⟨h₁, hfound⟩ := h.flowFind hinv.sorted_flows tmp
  unfold fileRecord FlowTrack.fileRecord
  rcases hfind : tt.flowFind tmp with ⟨tt₁, found⟩
  rw [hfind] at h₁ hfound
  obtain rfl : found = ft.flowFind tmp := hfound
  cases hfind' : ft.flowFind tmp with
  | none =>
    obtain ⟨tt₂, hcreate, h₂, hinv₂⟩ := createFlow_represents h₁ hinv hn
      { tmp with flowStart := received } (find_eq_none hfind') alloc
    rcases hresult : ft.createFlow { tmp with flowStart := received } alloc with ⟨ft₂, p⟩
    rw [hresult] at hcreate h₂ hinv₂
    simp only [hcreate, ok_bind]
    cases p with
    | none => exact ⟨rfl, h₂⟩
    | some p => exact htouch p h₂ (hinv₂ rfl)
  | some flow =>
    exact htouch _ (h₁.modifyFlow _ _) (hinv.modifyFlow fun _ _ _ => rfl)

/-- `process_packet`. -/
theorem processPacket_agrees (h : tt.Represents ft) (hinv : TableInv n ft) (hn : n < 2 ^ 64)
    (alloc : Alloc) (m : Bytes.Mem) (af : ℤ) (caplen len : UInt32) (received : Timeval) :
    Agrees SameResult (tt.processPacket alloc m af caplen len received)
      (ft.processPacket alloc m af caplen len received) := by
  unfold processPacket FlowTrack.processPacket
  cases FlowTrack.packetRecord m af caplen len with
  | none =>
    exact ⟨rfl, h.mapRest (g := fun ft => { ft with
      totalPackets := ft.totalPackets + 1, badPackets := ft.badPackets + 1 }) fun _ _ _ => rfl⟩
  | some record =>
    obtain ⟨tmp, frag⟩ := record
    have h₁ := h.mapRest
      (g := fun ft => { ft with totalPackets := ft.totalPackets + 1 }.countFragment frag)
      fun _ _ _ => by cases frag <;> rfl
    have hinv₁ : TableInv n { ft with totalPackets := ft.totalPackets + 1 } := hinv.of_table rfl
    have hmask : ({ tt.rest with totalPackets := tt.rest.totalPackets + 1 }.countFragment
        frag).maskRecord tmp = ({ ft with totalPackets := ft.totalPackets + 1 }.countFragment
        frag).maskRecord tmp := by
      rw [← h₁.table_eq]
      rfl
    dsimp only
    rw [hmask]
    exact fileRecord_agrees h₁ (hinv₁.countFragment frag) hn _ alloc received

/-! ## Messages of the emulator -/

/-- The results of `process_emulator_packet` and of the functions it is made of. -/
def SameEmulatorResult (x : PpResult × TreeTrack × Monitors) (y : PpResult × Tracker) : Prop :=
  x.1 = y.1 ∧ x.2.1.Represents y.2.ft ∧ x.2.2 = y.2.monitors

/-- The branch of `process_emulator_packet` that creates a flow. -/
theorem createEmulatorFlow_agrees (h : tt.Represents ft) (hinv : TableInv n ft) (hn : n < 2 ^ 64)
    (ms : Monitors) {tmp : Flow} (hfind : ft.flowFind tmp = none) (ndx : Dir) (c : EmulatorCall) :
    Agrees SameEmulatorResult (tt.createEmulatorFlow ms tmp ndx c)
      (Softflowd.createEmulatorFlow ms ft tmp ndx c) := by
  obtain ⟨tt₁, hcreate, h₁, -⟩ := createFlow_represents h hinv hn (tmp.stamp c.received)
    (find_eq_none hfind) c.alloc
  unfold createEmulatorFlow Softflowd.createEmulatorFlow
  rcases hresult : ft.createFlow (tmp.stamp c.received) c.alloc with ⟨ft₁, p⟩
  rw [hresult] at hcreate h₁
  simp only [hcreate, ok_bind]
  cases p with
  | none => exact ⟨rfl, h₁, rfl⟩
  | some p =>
    rcases copyPart 16 c.pkt 0 with stop | tmpEm
    · cases stop with
      | fail => exact ⟨rfl, h₁, rfl⟩
      | fault f => exact .of_error _
    · dsimp only
      cases inetPton tmpEm with
      | none => exact ⟨rfl, h₁, rfl⟩
      | some a =>
        refine Agrees.bind_same fun ms' _ => ?_
        exact ⟨rfl, h₁.modifyFlow _ _, rfl⟩

/-- The branch of `process_emulator_packet` that updates a flow of the table. -/
theorem updateEmulatorFlow_agrees (h : tt.Represents ft) (hinv : TableInv n ft) (ms : Monitors)
    {flow : Flow} (hflow : flow ∈ ft.flows) (tmp : Flow) (ndx : Dir) (c : EmulatorCall) :
    Agrees SameEmulatorResult (tt.updateEmulatorFlow ms flow tmp ndx c)
      (Softflowd.updateEmulatorFlow ms ft flow tmp ndx c) := by
  unfold updateEmulatorFlow Softflowd.updateEmulatorFlow
  rcases copyPart 16 c.pkt 0 with stop | tmpEm
  · cases stop with
    | fail => exact ⟨rfl, h, rfl⟩
    | fault f => exact .of_error _
  · refine Agrees.bind_same fun ms' _ => ?_
    cases inetPton tmpEm with
    | none => exact ⟨rfl, h, rfl⟩
    | some a =>
      refine Agrees.bind_same fun flow' hcount => ?_
      have h₁ := h.modifyFlow flow.ptr fun _ => flow'
      have hinv₁ := hinv.replaceFlow hflow (ident_of_countMonitor hcount)
      rcases getEmulatorPacketPart c.pkt maxEmulatorMessageParts with stop | last
      · cases stop with
        | fail => exact ⟨rfl, h₁, rfl⟩
        | fault f => exact .of_error _
      · dsimp only
        split
        · exact .of_error _
        · -- the expiry time is updated whether or not the packet was counted before
          have hrest {tt' : TreeTrack} {ft' : FlowTrack} (h' : tt'.Represents ft')
              (hinv' : TableInv n ft') : Agrees SameEmulatorResult
                (do return (.ok, ← tt'.flowUpdateExpiry flow.ptr, ms'))
                (do return (.ok, ⟨← ft'.flowUpdateExpiry flow.ptr, ms'⟩)) :=
            (flowUpdateExpiry_agrees h' hinv' flow.ptr).bind fun _ _ _ _ hab => ⟨rfl, hab, rfl⟩
          split
          · exact hrest (h₁.modifyFlow _ _) (hinv₁.modifyFlow fun _ _ _ => rfl)
          · exact hrest h₁ hinv₁

/-- Filing a record of the emulator. -/
theorem fileEmulatorRecord_agrees (h : tt.Represents ft) (hinv : TableInv n ft) (hn : n < 2 ^ 64)
    (ms : Monitors) (tmp : Flow) (ndx : Dir) (c : EmulatorCall) :
    Agrees SameEmulatorResult (tt.fileEmulatorRecord ms tmp ndx c)
      (Softflowd.fileEmulatorRecord ms ft tmp ndx c) := by
  obtain ⟨h₁, hfound⟩ := h.flowFind hinv.sorted_flows tmp
  unfold fileEmulatorRecord Softflowd.fileEmulatorRecord
  rcases hfind : tt.flowFind tmp with ⟨tt₁, found⟩
  rw [hfind] at h₁ hfound
  obtain rfl : found = ft.flowFind tmp := hfound
  cases hfind' : ft.flowFind tmp with
  | none => exact createEmulatorFlow_agrees h₁ hinv hn ms hfind' ndx c
  | some flow =>
    dsimp only
    rw [h₁.table_eq]
    cases ft.expiryOf flow with
    | none => exact .of_error _
    | some e =>
      dsimp only
      split
      · exact updateEmulatorFlow_agrees h₁ hinv ms (find_eq_some hfind').1 tmp ndx c
      · exact ⟨rfl, h₁, rfl⟩

/-- `process_emulator_packet`. -/
theorem processEmulatorPacket_agrees {s : Tracker} (h : tt.Represents s.ft)
    (hinv : TableInv n s.ft) (hn : n < 2 ^ 64) (c : EmulatorCall) :
    Agrees SameEmulatorResult (tt.processEmulatorPacket s.monitors c)
      (Softflowd.processEmulatorPacket s c) := by
  unfold processEmulatorPacket Softflowd.processEmulatorPacket
  split
  · exact .of_error _
  · rcases c.record with stop | ⟨tmp, frag, ndx⟩
    · cases stop with
      | fail =>
        exact ⟨rfl, h.mapRest (g := fun ft => { ft with
          totalPackets := ft.totalPackets + 1, badPackets := ft.badPackets + 1 })
          fun _ _ _ => rfl, rfl⟩
      | fault f => exact .of_error _
    · have h₁ := h.mapRest (g := fun ft => ft.counted frag) fun ft _ _ => by
        unfold FlowTrack.counted FlowTrack.countFragment
        split <;> rfl
      have hmask : (tt.rest.counted frag).maskRecord tmp = (s.ft.counted frag).maskRecord tmp := by
        rw [← h₁.table_eq]
        rfl
      dsimp only
      rw [hmask]
      exact fileEmulatorRecord_agrees h₁ (hinv.counted frag) hn s.monitors _ ndx c

end TreeTrack

end Softflowd
