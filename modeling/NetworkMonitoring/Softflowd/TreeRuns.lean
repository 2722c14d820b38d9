import NetworkMonitoring.Softflowd.TreeLoops

/-!
# softflowd — runs of the program on its trees

A run on the trees takes the same calls as a run on the table. The two kinds of runs have the same
states, as long as fewer than `2 ^ 64` flows have been created.

## Main results

* `flowTable_trees`: what holds of the trees in every reachable state;
* `reachable_iff_trees`: every reachable table is that of some trees, and the other way round;
* `treeCalls_return`: the functions on the trees return from every reachable state.
-/

namespace Softflowd

open ErrorLoops OrderedSet
open RedBlackTree (Valid)

/-! ## The expiry of flows -/

/-- The state of the program: the trees, the monitors and the exporter. -/
structure TreeDaemon where
  trees : TreeTrack := {}
  monitors : Monitors := {}
  exporter : Exporter := {}

/-- The state with the trees seen as a table. -/
def TreeDaemon.daemon (s : TreeDaemon) : Daemon :=
  { tracker := { ft := s.trees.table, monitors := s.monitors }, exporter := s.exporter }

/-- `check_expired`. The scan has as many rounds as there are expiry events. -/
def TreeDaemon.checkExpired (c : ExpiryCall) (s : TreeDaemon) : Except Fault (ℤ × TreeDaemon) := do
  let (tt, expired) ←
    s.trees.scanExpired c.now c.ex c.reallocOk s.trees.expiries.inorder.length
  if expired.isEmpty then
    return (0, { s with trees := tt })
  else
    let st ← exportExpired c s.monitors
      { ft := tt.rest, exporter := s.exporter, expired := expired }
    return (if st.r = -1 then -1 else (expired.length : ℤ),
      { trees := { tt with rest := st.expired.foldl updateStatistics st.ft }
        monitors := s.monitors
        exporter := st.exporter })

/-- An export state with other nodes in its trees. -/
def ExportState.withNodes (flows : List Flow) (expiries : List Expiry) (st : ExportState) :
    ExportState :=
  { st with ft := { st.ft with flows := flows, expiries := expiries } }

section Export

variable {func : NetflowSendFunc} {fs : List Flow} {es : List Expiry}

/-- The export does not look at the trees. -/
theorem exportDirection_withNodes (a : InetText.InAddr) (st : ExportState) (d : Dir) :
    exportDirection func a (st.withNodes fs es) d =
      (exportDirection func a st d).map (ExportState.withNodes fs es) := by
  simp only [exportDirection, ExportState.withNodes]
  cases st.expired.mapM (markFlow d a) with
  | error e => rfl
  | ok marked =>
    simp only [ok_bind]
    rcases func ((marked.filter Prod.snd).map Prod.fst) st.ft.flowsExported st.ft.systemBootTime
      d.val st.exporter with e | ⟨r, flowsExported, exporter⟩ <;> rfl

theorem exportMonitor_withNodes (ms : Monitors) (st : ExportState) (m : ℕ) :
    exportMonitor func ms (st.withNodes fs es) m =
      (exportMonitor func ms st m).map (ExportState.withNodes fs es) := by
  unfold exportMonitor
  split
  · rw [exportDirection_withNodes]
    cases exportDirection func (ms.adrs ⟨m, ‹_›⟩) st 0 with
    | error e => rfl
    | ok st₁ => exact exportDirection_withNodes _ st₁ 1
  · rfl

theorem exportAll_withNodes (st : ExportState) :
    exportAll func (st.withNodes fs es) =
      (exportAll func st).map (ExportState.withNodes fs es) := by
  simp only [exportAll, ExportState.withNodes]
  rcases func st.expired st.ft.flowsExported st.ft.systemBootTime (-1) st.exporter with
    e | ⟨r, flowsExported, exporter⟩
  · rfl
  · simp only [ok_bind]
    split <;> rfl

theorem exportExpired_withNodes (c : ExpiryCall) (ms : Monitors) (st : ExportState) :
    exportExpired c ms (st.withNodes fs es) =
      (exportExpired c ms st).map (ExportState.withNodes fs es) := by
  unfold exportExpired
  cases c.target with
  | none => rfl
  | some func =>
    dsimp only
    split
    · exact foldlM_map fun st m => exportMonitor_withNodes ms st m
    · exact exportAll_withNodes st

theorem foldl_updateStatistics_withNodes (expired : List Flow) (ft : FlowTrack) :
    expired.foldl updateStatistics { ft with flows := fs, expiries := es } =
      { expired.foldl updateStatistics ft with flows := fs, expiries := es } := by
  induction expired generalizing ft with
  | nil => rfl
  | cons f expired ih => exact ih (updateStatistics ft f)

end Export

/-- The results of `check_expired`. -/
def SameExpiry (x : ℤ × TreeDaemon) (y : ℤ × Daemon) : Prop :=
  x.1 = y.1 ∧ x.2.daemon = y.2 ∧ Valid x.2.trees.expiries

/-- `check_expired`. -/
theorem TreeDaemon.checkExpired_agrees {s : TreeDaemon} {n : ℕ} (hvalid : Valid s.trees.expiries)
    (hinv : TableInv n s.trees.table) (c : ExpiryCall) :
    Agrees SameExpiry (s.checkExpired c) (Softflowd.checkExpired c s.daemon) := by
  have hscan := TreeTrack.scanExpired_agrees ⟨rfl, hvalid⟩ hinv c.now c.ex c.reallocOk
    (Nat.le_refl _)
  unfold checkExpired Softflowd.checkExpired
  refine hscan.bind ?_
  rintro ⟨tt, expired⟩ ⟨ft, expired'⟩ - - ⟨h, hexpired⟩
  obtain rfl : expired = expired' := hexpired
  obtain ⟨rfl, hvalid'⟩ := h
  dsimp only
  split
  · exact ⟨rfl, rfl, hvalid'⟩
  · have hexport : exportExpired c s.monitors
        { ft := tt.table, exporter := s.exporter, expired := expired } =
          (exportExpired c s.monitors
            { ft := tt.rest, exporter := s.exporter, expired := expired }).map
            (ExportState.withNodes (SplayTree.inorder tt.flows) tt.expiries.inorder) :=
      exportExpired_withNodes c s.monitors
        { ft := tt.rest, exporter := s.exporter, expired := expired }
    simp only [daemon, hexport]
    cases exportExpired c s.monitors
        { ft := tt.rest, exporter := s.exporter, expired := expired } with
    | error e => exact .of_error _
    | ok st =>
      refine ⟨rfl, ?_, hvalid'⟩
      simp only [daemon, TreeTrack.table, ExportState.withNodes, foldl_updateStatistics_withNodes]

/-! ## Runs -/

/-- A call of one of the functions that work on the trees. -/
inductive TreeStep : TreeDaemon → TreeDaemon → Prop where
  | processPacket {s : TreeDaemon} {r : PpResult} {tt : TreeTrack} (m : Bytes.Mem) (af : ℤ)
      (caplen len : UInt32) (received : Timeval) :
      s.trees.processPacket {} m af caplen len received = .ok (r, tt) →
      TreeStep s { s with trees := tt }
  | processEmulatorPacket {s : TreeDaemon} {tt : TreeTrack} {ms : Monitors} (c : EmulatorCall) :
      s.trees.processEmulatorPacket s.monitors c = .ok (.ok, tt, ms) →
      TreeStep s { s with trees := tt, monitors := ms }
  | flowUpdateExpiry {s : TreeDaemon} {tt : TreeTrack} (p : ℕ) :
      s.trees.flowUpdateExpiry p = .ok tt → TreeStep s { s with trees := tt }
  | forceExpire {s : TreeDaemon} {tt : TreeTrack} (num : UInt32) :
      s.trees.forceExpire true num = .ok tt → TreeStep s { s with trees := tt }
  | checkExpired {s s' : TreeDaemon} {r : ℤ} (c : ExpiryCall) : c.reallocOk = (fun _ => true) →
      s.checkExpired c = .ok (r, s') → TreeStep s s'
  | deleteAllFlows {s : TreeDaemon} {r : ℤ} {tt : TreeTrack} :
      s.trees.deleteAllFlows (SplayTree.inorder s.trees.flows).length = .ok (r, tt) →
      TreeStep s { s with trees := tt }

/-- Empty trees, as `init_flowtrack` leaves them. -/
structure TreeDaemon.Initial (s : TreeDaemon) : Prop where
  flows_eq : s.trees.flows = .nil
  expiries_eq : s.trees.expiries = .nil
  numFlows_eq : s.trees.rest.numFlows = 0
  nextFlowSeq_eq : s.trees.rest.nextFlowSeq = 1

/-- The states of the runs on the trees that have created `n` flows. -/
inductive TreeReachable : ℕ → TreeDaemon → Prop where
  | init {s : TreeDaemon} : s.Initial → TreeReachable 0 s
  | step {n : ℕ} {s s' : TreeDaemon} : TreeReachable n s → TreeStep s s' →
      TreeReachable (created n s.trees.table s'.trees.table) s'

section Calls

variable {s : TreeDaemon} {n : ℕ}

/-- The trees of a state hold the nodes of its table. -/
theorem TreeDaemon.represents (hvalid : Valid s.trees.expiries) :
    s.trees.Represents s.daemon.tracker.ft := ⟨rfl, hvalid⟩

/-- A call on the trees is a call on the table. -/
theorem TreeStep.sound {s' : TreeDaemon} (hstep : TreeStep s s') (hvalid : Valid s.trees.expiries)
    (hinv : TableInv n s.trees.table) (hn : n < 2 ^ 64) :
    Step s.daemon s'.daemon ∧ Valid s'.trees.expiries := by
  have h := TreeDaemon.represents hvalid
  cases hstep with
  | processPacket m af caplen len received hcall =>
    have hagrees := TreeTrack.processPacket_agrees h hinv hn {} m af caplen len received
    rw [hcall] at hagrees
    obtain ⟨⟨r', ft⟩, hcall', hr, rfl, hvalid'⟩ := hagrees.exists_ok'
    obtain rfl := hr
    exact ⟨.processPacket m af caplen len received hcall', hvalid'⟩
  | processEmulatorPacket c hcall =>
    have hagrees := TreeTrack.processEmulatorPacket_agrees (s := s.daemon.tracker) h hinv hn c
    rw [show s.daemon.tracker.monitors = s.monitors from rfl, hcall] at hagrees
    obtain ⟨⟨r, ⟨ft, ms⟩⟩, hcall', hr, ⟨rfl, hvalid'⟩, rfl⟩ := hagrees.exists_ok'
    obtain rfl := hr
    exact ⟨.processEmulatorPacket c hcall', hvalid'⟩
  | flowUpdateExpiry p hcall =>
    have hagrees := TreeTrack.flowUpdateExpiry_agrees h hinv p
    rw [hcall] at hagrees
    obtain ⟨ft, hcall', rfl, hvalid'⟩ := hagrees.exists_ok'
    exact ⟨.flowUpdateExpiry p hcall', hvalid'⟩
  | forceExpire num hcall =>
    obtain ⟨tt', hcall', htable, hvalid'⟩ := TreeTrack.forceExpire_represents h hinv true num
    obtain rfl := Except.ok.inj (hcall.symm.trans hcall')
    refine ⟨?_, hvalid'⟩
    unfold TreeDaemon.daemon
    rw [htable]
    exact .forceExpire num
  | checkExpired c halloc hcall =>
    have hagrees := TreeDaemon.checkExpired_agrees hvalid hinv c
    rw [hcall] at hagrees
    obtain ⟨⟨r', s₁⟩, hcall', hr, rfl, hvalid'⟩ := hagrees.exists_ok'
    obtain rfl := hr
    exact ⟨.checkExpired c halloc hcall', hvalid'⟩
  | deleteAllFlows hcall =>
    have hagrees := TreeTrack.deleteAllFlows_agrees h hinv (Nat.le_refl _)
    rw [show s.daemon.tracker.ft.flows = SplayTree.inorder s.trees.flows from rfl, hcall] at hagrees
    obtain ⟨⟨r', ft⟩, hcall', -, ⟨rfl, hvalid'⟩, -⟩ := hagrees.exists_ok'
    exact ⟨.deleteAllFlows hcall', hvalid'⟩

/-- A call on the table is a call on the trees. -/
theorem Step.exists_treeStep {d : Daemon} (hstep : Step s.daemon d)
    (hvalid : Valid s.trees.expiries) (hinv : TableInv n s.trees.table) (hn : n < 2 ^ 64) :
    ∃ s', TreeStep s s' ∧ s'.daemon = d ∧ Valid s'.trees.expiries := by
  have h := TreeDaemon.represents hvalid
  generalize hd : s.daemon = d₀ at hstep
  cases hstep with
  | processPacket m af caplen len received hcall =>
    subst hd
    have hagrees := TreeTrack.processPacket_agrees h hinv hn {} m af caplen len received
    rw [hcall] at hagrees
    obtain ⟨⟨r', tt⟩, hcall', hr, rfl, hvalid'⟩ := hagrees.exists_ok
    exact ⟨_, .processPacket m af caplen len received hcall', rfl, hvalid'⟩
  | @processEmulatorPacket t c hcall =>
    subst hd
    obtain ⟨ft, ms⟩ := t
    have hagrees := TreeTrack.processEmulatorPacket_agrees h hinv hn c
    rw [hcall] at hagrees
    obtain ⟨⟨r', tt, ms'⟩, hcall', hr, ⟨rfl, hvalid'⟩, hms⟩ := hagrees.exists_ok
    obtain rfl : r' = .ok := hr
    obtain rfl : ms' = ms := hms
    exact ⟨_, .processEmulatorPacket c hcall', rfl, hvalid'⟩
  | flowUpdateExpiry p hcall =>
    subst hd
    have hagrees := TreeTrack.flowUpdateExpiry_agrees h hinv p
    rw [hcall] at hagrees
    obtain ⟨tt, hcall', rfl, hvalid'⟩ := hagrees.exists_ok
    exact ⟨_, .flowUpdateExpiry p hcall', rfl, hvalid'⟩
  | forceExpire num =>
    subst hd
    obtain ⟨tt', hcall', htable, hvalid'⟩ := TreeTrack.forceExpire_represents h hinv true num
    refine ⟨_, .forceExpire num hcall', ?_, hvalid'⟩
    unfold TreeDaemon.daemon
    rw [htable]
    rfl
  | checkExpired c halloc hcall =>
    subst hd
    have hagrees := TreeDaemon.checkExpired_agrees hvalid hinv c
    rw [hcall] at hagrees
    obtain ⟨⟨r', s'⟩, hcall', hr, rfl, hvalid'⟩ := hagrees.exists_ok
    exact ⟨s', .checkExpired c halloc hcall', rfl, hvalid'⟩
  | deleteAllFlows hcall =>
    subst hd
    have hagrees := TreeTrack.deleteAllFlows_agrees h hinv (Nat.le_refl _)
    rw [hcall] at hagrees
    obtain ⟨⟨r', tt⟩, hcall', -, ⟨rfl, hvalid'⟩, -⟩ := hagrees.exists_ok
    exact ⟨_, .deleteAllFlows hcall', rfl, hvalid'⟩

end Calls

theorem TreeDaemon.Initial.valid {s : TreeDaemon} (h : s.Initial) : Valid s.trees.expiries := by
  rw [h.expiries_eq]
  exact ⟨0, .nil⟩

theorem TreeDaemon.Initial.daemon_initial {s : TreeDaemon} (h : s.Initial) : s.daemon.Initial where
  flows_eq := congrArg SplayTree.inorder h.flows_eq
  expiries_eq := congrArg RedBlackTree.Tree.inorder h.expiries_eq
  numFlows_eq := h.numFlows_eq
  nextFlowSeq_eq := h.nextFlowSeq_eq

/-- A run on the trees is a run on the table. -/
theorem TreeReachable.sound {n : ℕ} {s : TreeDaemon} (h : TreeReachable n s) (hn : n < 2 ^ 64) :
    Reachable n s.daemon ∧ Valid s.trees.expiries := by
  induction h with
  | init h => exact ⟨.init h.daemon_initial, h.valid⟩
  | step _ hstep ih =>
    have hlt := Nat.lt_of_le_of_lt (le_created _ _ _) hn
    obtain ⟨hreach, hvalid⟩ := ih hlt
    obtain ⟨hstep', hvalid'⟩ := hstep.sound hvalid (hreach.tableInv hlt) hlt
    exact ⟨hreach.step hstep', hvalid'⟩

/-- A run on the table is a run on the trees. -/
theorem Reachable.exists_trees {n : ℕ} {d : Daemon} (h : Reachable n d) (hn : n < 2 ^ 64) :
    ∃ s, TreeReachable n s ∧ s.daemon = d ∧ Valid s.trees.expiries := by
  induction h with
  | @init d h =>
    have hinit : TreeDaemon.Initial
        { trees := { rest := d.tracker.ft }, monitors := d.tracker.monitors
          exporter := d.exporter } := ⟨rfl, rfl, h.numFlows_eq, h.nextFlowSeq_eq⟩
    refine ⟨_, .init hinit, ?_, hinit.valid⟩
    obtain ⟨⟨ft, ms⟩, ex⟩ := d
    have hflows : ft.flows = [] := h.flows_eq
    have hexpiries : ft.expiries = [] := h.expiries_eq
    have htable : TreeTrack.table { rest := ft } = ft := by
      obtain ⟨⟩ := ft
      subst hflows hexpiries
      rfl
    simp only [TreeDaemon.daemon, htable]
  | @step n d d' hd hstep ih =>
    have hlt := Nat.lt_of_le_of_lt (le_created _ _ _) hn
    obtain ⟨s, hreach, rfl, hvalid⟩ := ih hlt
    obtain ⟨s', hstep', rfl, hvalid'⟩ := hstep.exists_treeStep hvalid (hd.tableInv hlt) hlt
    exact ⟨s', hreach.step hstep', rfl, hvalid'⟩

/-- Trees with three flows. -/
theorem exists_threeTrees :
    ∃ s, TreeReachable 3 s ∧ (SplayTree.inorder s.trees.flows).length = 3 := by
  obtain ⟨d, hreach, -, hkeys⟩ := exists_flood (k := 3) (by norm_num)
  obtain ⟨s, hs, rfl, -⟩ := hreach.exists_trees (by norm_num)
  have hlen : s.daemon.tracker.ft.flows.length = 3 := by
    simpa using hkeys.length_eq
  exact ⟨s, hs, hlen⟩

/-- **The trees of a run.** Every state of a run on the trees is, read as a table, a state of a run
on the table. Both trees are search trees, a search finds the flow with the key it is asked for, and
the expiry tree keeps the colours that make its height logarithmic in the number of flows. -/
theorem flowTable_trees {n : ℕ} {s : TreeDaemon} (h : TreeReachable n s) (hn : n < 2 ^ 64) :
    Reachable n s.daemon ∧
    Sorted flowCompare (SplayTree.inorder s.trees.flows) ∧
    Sorted (expiryCompare (SplayTree.inorder s.trees.flows)) s.trees.expiries.inorder ∧
    (∀ tmp flow, (s.trees.flowFind tmp).2 = some flow ↔
      flow ∈ SplayTree.inorder s.trees.flows ∧ flow.key = tmp.key) ∧
    Valid s.trees.expiries ∧
    s.trees.expiries.height ≤ 2 * Nat.log 2 ((SplayTree.inorder s.trees.flows).length + 1) := by
  obtain ⟨hreach, hvalid⟩ := h.sound hn
  have hinv : TableInv n s.trees.table := hreach.tableInv hn
  have hrep : s.trees.Represents s.trees.table := ⟨rfl, hvalid⟩
  refine ⟨hreach, hinv.sorted_flows, hinv.sorted_expiries, fun tmp flow => ?_, hvalid, ?_⟩
  · obtain ⟨-, hfind⟩ := hrep.flowFind hinv.sorted_flows tmp
    rw [hfind, flowFind_eq_some hinv.sorted_flows, flowCompare_eq_iff, eq_comm (a := tmp.key)]
    rfl
  · have hlen : s.trees.expiries.inorder.length = (SplayTree.inorder s.trees.flows).length :=
      hinv.length_expiries
    exact hlen ▸ RedBlackTree.height_le hvalid

/-- The expiry tree of three flows is at most four nodes high. -/
theorem flowTable_trees_three : ∃ s, TreeReachable 3 s ∧
    (SplayTree.inorder s.trees.flows).length = 3 ∧ s.trees.expiries.height ≤ 4 := by
  obtain ⟨s, hs, hlen⟩ := exists_threeTrees
  obtain ⟨-, -, -, -, -, hheight⟩ := flowTable_trees hs (by norm_num)
  rw [hlen, show Nat.log 2 (3 + 1) = 2 by decide] at hheight
  exact ⟨s, hs, hlen, hheight⟩

/-- **Two levels.** The states of the runs on the table are the states of the runs on the trees,
read as tables. -/
theorem reachable_iff_trees {n : ℕ} (hn : n < 2 ^ 64) (d : Daemon) :
    Reachable n d ↔ ∃ s, TreeReachable n s ∧ s.daemon = d := by
  constructor
  · intro h
    obtain ⟨s, hreach, hd, -⟩ := h.exists_trees hn
    exact ⟨s, hreach, hd⟩
  · rintro ⟨s, hreach, rfl⟩
    exact (hreach.sound hn).1

/-- Three flows on a table are three flows on trees. -/
theorem reachable_iff_trees_three :
    ∃ s, TreeReachable 3 s ∧ s.daemon.tracker.ft.flows.length = 3 := by
  obtain ⟨d, hreach, -, hkeys⟩ := exists_flood (k := 3) (by norm_num)
  obtain ⟨s, hs, rfl⟩ := (reachable_iff_trees (by norm_num) d).mp hreach
  exact ⟨s, hs, by simpa using hkeys.length_eq⟩

/-- **The calls return.** From every state of a run on the trees, the functions on the trees return:
no link is missing inside a tree operation, and the loops over the trees end after one round for
each node. The scan leaves the events that are not due. Deleting all flows empties both trees. -/
theorem treeCalls_return {n : ℕ} {s : TreeDaemon} (h : TreeReachable n s) (hn : n < 2 ^ 64) :
    (∀ m af caplen len received, ∃ r, s.trees.processPacket {} m af caplen len received = .ok r) ∧
    (∀ num, ∃ tt, s.trees.forceExpire true num = .ok tt) ∧
    (∀ now ex reallocOk, ∃ tt expired,
      s.trees.scanExpired now ex reallocOk s.trees.expiries.inorder.length = .ok (tt, expired) ∧
      tt.expiries.inorder = s.trees.expiries.inorder.filter fun e => !e.isDue now ex) ∧
    ∃ tt, s.trees.deleteAllFlows (SplayTree.inorder s.trees.flows).length =
        .ok ((SplayTree.inorder s.trees.flows).length, tt) ∧
      tt.flows = .nil ∧ tt.expiries = .nil ∧ tt.rest.numFlows = 0 := by
  obtain ⟨hreach, hvalid⟩ := h.sound hn
  have hinv : TableInv n s.trees.table := hreach.tableInv hn
  have hrep : s.trees.Represents s.trees.table := ⟨rfl, hvalid⟩
  -- each call returns on the table, and the call on the trees agrees with it
  refine ⟨fun m af caplen len received => ?_, fun num => ?_, fun now ex reallocOk => ?_, ?_⟩
  · obtain ⟨r, ft, hcall, -⟩ := hinv.processPacket hn m af caplen len received
    have hagrees := TreeTrack.processPacket_agrees hrep hinv hn {} m af caplen len received
    rw [hcall] at hagrees
    obtain ⟨r', hcall', -⟩ := hagrees.exists_ok
    exact ⟨r', hcall'⟩
  · obtain ⟨tt, hcall, -⟩ := TreeTrack.forceExpire_represents hrep hinv true num
    exact ⟨tt, hcall⟩
  · obtain ⟨ft, gone, kept, hscan, -, -, -, -, -, hleft⟩ :=
      scanExpired_spec (P := TableInv n) now ex reallocOk (fun _ h => h.nodup_expiry)
        (fun _ _ h he => h.expireFlow he ex) hinv
    have hagrees := TreeTrack.scanExpired_agrees hrep hinv now ex reallocOk (Nat.le_refl _)
    rw [hscan] at hagrees
    obtain ⟨⟨tt, expired⟩, hcall, hsame, -⟩ := hagrees.exists_ok
    exact ⟨tt, expired, hcall, hsame.expiries_eq.trans hleft⟩
  · have hagrees := TreeTrack.deleteAllFlows_agrees hrep hinv (Nat.le_refl _)
    obtain ⟨r, ft, hcall, -⟩ := hinv.deleteAllFlows
    rw [hcall] at hagrees
    obtain ⟨⟨r', tt⟩, hcall', hr, hsame, hinv', hempty⟩ := hagrees.exists_ok
    obtain ⟨ft', -, hresult⟩ := bind_eq_ok.mp hcall
    obtain ⟨rfl, rfl⟩ := Prod.mk.inj (Except.ok.inj hresult)
    obtain rfl := hr
    have hexpiries : tt.expiries.inorder = [] := by
      rw [hsame.expiries_eq, ← List.length_eq_zero_iff, hinv'.length_expiries, hempty]
      rfl
    refine ⟨tt, hcall', SplayTree.eq_nil_of_inorder (hsame.flows_eq.trans hempty), ?_, ?_⟩
    · exact RedBlackTree.eq_nil_of_inorder hexpiries
    · change tt.table.numFlows = 0
      rw [hsame.table_eq, hinv'.numFlows_eq, hempty]
      rfl

/-- Three flows are deleted. -/
theorem treeCalls_return_three : ∃ s tt, TreeReachable 3 s ∧
    s.trees.deleteAllFlows 3 = .ok (3, tt) ∧ tt.flows = .nil ∧ tt.expiries = .nil := by
  obtain ⟨s, hs, hlen⟩ := exists_threeTrees
  obtain ⟨-, -, -, tt, hcall, hflows, hexpiries, -⟩ := treeCalls_return hs (by norm_num)
  rw [hlen] at hcall
  exact ⟨s, tt, hs, hcall, hflows, hexpiries⟩

end Softflowd
