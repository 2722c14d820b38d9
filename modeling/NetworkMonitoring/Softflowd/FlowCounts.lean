import NetworkMonitoring.Softflowd.ExpiryLoop
import NetworkMonitoring.Softflowd.Statistics

/-!
# softflowd — the number of flows

Each flow that a run has created is in the table, or it has expired, or `delete_all_flows` has
removed it. An expired flow is counted by its reason when the scan takes it out, and in total and by
its protocol after the export.

## Main results

* `FlowRun.counts`: the counters of a run that has created fewer than `2 ^ 64` flows;
* `flowCounts_wrap`: with `2 ^ 32` live flows `num_flows` is zero.
-/

namespace Softflowd

open Bytes Counters Function OrderedSet

/-! ## Runs -/

/-- The states of the runs in which no allocation fails; `n` flows have been created, and
`delete_all_flows` has removed `d`. -/
inductive FlowRun : ℕ → ℕ → Daemon → Prop where
  | init {s : Daemon} : s.Initial → s.tracker.ft.counters = ({} : FlowTrack).counters →
      FlowRun 0 0 s
  | processPacket {n d : ℕ} {s : Daemon} {r : PpResult} {ft : FlowTrack} (m : Mem) (af : ℤ)
      (caplen len : UInt32) (received : Timeval) : FlowRun n d s →
      s.tracker.ft.processPacket {} m af caplen len received = .ok (r, ft) →
      FlowRun (created n s.tracker.ft ft) d { s with tracker := { s.tracker with ft := ft } }
  | processEmulatorPacket {n d : ℕ} {s : Daemon} {t : Tracker} (c : EmulatorCall) :
      FlowRun n d s → processEmulatorPacket s.tracker c = .ok (.ok, t) →
      FlowRun (created n s.tracker.ft t.ft) d { s with tracker := t }
  | forceExpire {n d : ℕ} {s : Daemon} (num : UInt32) : FlowRun n d s →
      FlowRun n d { s with tracker := { s.tracker with ft := s.tracker.ft.forceExpire true num } }
  | checkExpired {n d : ℕ} {s s' : Daemon} {r : ℤ} (c : ExpiryCall) : FlowRun n d s →
      c.reallocOk = (fun _ => true) → checkExpired c s = .ok (r, s') → FlowRun n d s'
  | deleteAllFlows {n d : ℕ} {s : Daemon} {r : ℤ} {ft : FlowTrack} : FlowRun n d s →
      s.tracker.ft.deleteAllFlows = .ok (r, ft) →
      FlowRun n (d + r.toNat) { s with tracker := { s.tracker with ft := ft } }

/-- What holds of the counters of such a run. -/
structure FlowCounts (n d : ℕ) (ft : FlowTrack) : Prop where
  table : TableInv n ft
  flows : n = ft.flows.length + ft.flowsExpired.toNat + d
  expired : total ft.expired = ft.flowsExpired.toNat
  flowsPp : total ft.flowsPp = ft.flowsExpired.toNat

variable {n d : ℕ} {ft ft' : FlowTrack}

/-- A call that creates a flow, or leaves all of them in the table, and that expires none. -/
theorem FlowCounts.live (h : FlowCounts n d ft) (hstatistics : ft'.statistics = ft.statistics)
    (hlive : TableInv (n + 1) ft' ∧ ft'.flows.length = ft.flows.length + 1 ∨
      TableInv n ft' ∧ ft'.nextFlowSeq = ft.nextFlowSeq ∧ ft'.flows.length = ft.flows.length) :
    FlowCounts (created n ft ft') d ft' := by
  have hexpired : ft'.flowsExpired = ft.flowsExpired :=
    congrArg Statistics.flowsExpired hstatistics
  have hreasons : ft'.expired = ft.expired := congrArg Statistics.expired hstatistics
  have hpp : ft'.flowsPp = ft.flowsPp := congrArg Statistics.flowsPp hstatistics
  have hflows := h.flows
  rcases hlive with ⟨hinv, hlength⟩ | ⟨hinv, hseq, hlength⟩
  · rw [h.table.created_eq_succ hinv]
    refine ⟨hinv, by rw [hexpired]; omega, ?_, ?_⟩
    · rw [hreasons, hexpired]
      exact h.expired
    · rw [hpp, hexpired]
      exact h.flowsPp
  · rw [TableInv.created_eq_self hseq]
    refine ⟨hinv, by rw [hexpired]; omega, ?_, ?_⟩
    · rw [hreasons, hexpired]
      exact h.expired
    · rw [hpp, hexpired]
      exact h.flowsPp

/-- A packet starts a flow or changes none of their number. -/
theorem FlowCounts.processPacket (h : FlowCounts n d ft) (hn : n < 2 ^ 64) {m : Mem} {af : ℤ}
    {caplen len : UInt32} {received : Timeval} {r : PpResult}
    (hcall : ft.processPacket {} m af caplen len received = .ok (r, ft')) :
    FlowCounts (created n ft ft') d ft' := by
  cases h.table.processPacket_step hn hcall with
  | bad _ => exact h.live rfl (Or.inr ⟨h.table.of_table rfl, rfl, rfl⟩)
  | filed _ hcounters hfiled =>
    apply h.live (congrArg (fun x => x.2.2) hcounters)
    cases hfiled with
    | started hnone hinv hperm =>
      refine Or.inl ⟨hinv, ?_⟩
      simpa using hperm.length_eq
    | added flow hsome hinv hseq hmap =>
      refine Or.inr ⟨hinv, hseq, ?_⟩
      simpa [FlowTrack.modifyFlow] using congrArg List.length hmap

/-- So does a message. -/
theorem FlowCounts.processEmulatorPacket {t t' : Tracker} (h : FlowCounts n d t.ft)
    (hn : n < 2 ^ 64) {c : EmulatorCall}
    (hcall : Softflowd.processEmulatorPacket t c = .ok (.ok, t')) :
    FlowCounts (created n t.ft t'.ft) d t'.ft := by
  have hflows : ∀ frag, (t.ft.counted frag).flows = t.ft.flows := fun frag =>
    congrArg Prod.fst (t.ft.table_counted frag)
  have hstep := processEmulatorPacket_step hcall
  have hstatistics : t'.ft.statistics = t.ft.statistics :=
    congrArg (fun x => x.2.2) hstep.counters_of_ok
  -- only a created flow changes their number
  cases hstep with
  | @created tmp frag ndx ft p em a ms _ hfind hcreate =>
    obtain ⟨-, hinv, hperm, -⟩ := (h.table.counted frag).createFlow_inv hn hfind hcreate
    refine h.live hstatistics (Or.inl ⟨hinv.modifyFlow fun _ _ _ => rfl, ?_⟩)
    have hlength := hperm.length_eq
    rw [List.length_cons, hflows frag] at hlength
    simpa [FlowTrack.modifyFlow] using hlength
  | @ignored tmp frag ndx flow e =>
    refine h.live hstatistics (Or.inr ⟨h.table.counted frag, t.ft.nextFlowSeq_counted frag, ?_⟩)
    exact congrArg List.length (hflows frag)
  | @updated tmp frag ndx flow _ _ _ _ flow' last ft _ hfind _ _ _ _ _ hcount _ _ hupd =>
    obtain ⟨hflow, -⟩ := find_eq_some hfind
    have hid := (c.ident_settle last ((t.ft.counted frag).maskRecord tmp) ndx flow').trans
      (ident_of_countMonitor hcount)
    obtain ⟨e, he, -, rfl⟩ := (h.table.counted frag).replaceFlow_updateExpiry hflow hid hupd
    refine h.live hstatistics (Or.inr ⟨((h.table.counted frag).replaceFlow hflow hid).rekey he _ _,
      t.ft.nextFlowSeq_counted frag, ?_⟩)
    show ((t.ft.counted frag).modifyFlow _ _).flows.length = _
    rw [FlowTrack.modifyFlow, List.length_map, hflows frag]

/-- `update_statistics` for all expired flows. -/
theorem Statistics.counts_foldl {st : Statistics} {fs : List Flow}
    (hflows : st.flowsExpired.toNat + fs.length < 2 ^ 64)
    (hpp : total st.flowsPp = st.flowsExpired.toNat) :
    (fs.foldl Statistics.count st).flowsExpired.toNat = st.flowsExpired.toNat + fs.length ∧
      total (fs.foldl Statistics.count st).flowsPp =
        (fs.foldl Statistics.count st).flowsExpired.toNat := by
  induction fs generalizing st with
  | nil => exact ⟨rfl, hpp⟩
  | cons f fs ih =>
    rw [List.length_cons] at hflows
    have hcount : (st.count f).flowsExpired.toNat = st.flowsExpired.toNat + 1 :=
      toNat_add_of_lt (by rw [UInt64.toNat_one]; omega)
    have hle := toNat_le_total st.flowsPp f.protocol
    have htable : total (st.count f).flowsPp = total st.flowsPp + 1 :=
      total_update st.flowsPp (by rw [UInt64.toNat_one]; omega)
    obtain ⟨hexpired, htotal⟩ := @ih (st.count f) (by omega) (by omega)
    refine ⟨?_, htotal⟩
    rw [List.foldl_cons, hexpired, List.length_cons]
    omega

/-- The scan counts reasons, the statistics count protocols. -/
theorem FlowCounts.checkExpired {s s' : Daemon} (h : FlowCounts n d s.tracker.ft)
    (hn : n < 2 ^ 64) {c : ExpiryCall} {r : ℤ} (halloc : c.reallocOk = fun _ => true)
    (hcall : Softflowd.checkExpired c s = .ok (r, s')) : FlowCounts n d s'.tracker.ft := by
  obtain ⟨ft, gone, -, hinv, -, hperm, hscan, hcounters, hreasons⟩ :=
    h.table.checkExpired_cases halloc hcall
  have hlength := hperm.length_eq
  rw [List.length_append] at hlength
  have hflows := h.flows
  have hexpired := h.expired
  have hft : ft.flowsExpired = s.tracker.ft.flowsExpired :=
    congrArg Statistics.flowsExpired hscan
  have hpp : ft.flowsPp = s.tracker.ft.flowsPp := congrArg Statistics.flowsPp hscan
  have hstatistics : s'.tracker.ft.statistics = gone.foldl Statistics.count ft.statistics :=
    congrArg (fun x => x.2.2) hcounters
  obtain ⟨hcount, htotal⟩ := @Statistics.counts_foldl ft.statistics gone
    (by show ft.flowsExpired.toNat + _ < _; rw [hft]; omega)
    (by show total ft.flowsPp = ft.flowsExpired.toNat; rw [hft, hpp]; exact h.flowsPp)
  rw [← hstatistics] at hcount htotal
  have hcount' : s'.tracker.ft.flowsExpired.toNat =
      s.tracker.ft.flowsExpired.toNat + gone.length := hft ▸ hcount
  refine ⟨hinv, by omega, ?_, htotal⟩
  rw [hreasons (by omega), hcount', hexpired]

theorem created_le_of_lt {N : ℕ} (h : created n ft ft' < N) : n < N :=
  Nat.lt_of_le_of_lt (le_created n ft ft') h

theorem FlowRun.flowCounts {s : Daemon} (h : FlowRun n d s) (hn : n < 2 ^ 64) :
    FlowCounts n d s.tracker.ft := by
  induction h with
  | @init s hinit hzero =>
    have hstatistics : s.tracker.ft.statistics = ({} : FlowTrack).statistics :=
      congrArg (fun x => x.2.2) hzero
    have hexpired : s.tracker.ft.flowsExpired = 0 := congrArg Statistics.flowsExpired hstatistics
    have hreasons : s.tracker.ft.expired = fun _ => 0 := congrArg Statistics.expired hstatistics
    have hpp : s.tracker.ft.flowsPp = fun _ => 0 := congrArg Statistics.flowsPp hstatistics
    refine ⟨.empty hinit.flows_eq hinit.expiries_eq hinit.nextFlowSeq_eq hinit.numFlows_eq, ?_, ?_,
      ?_⟩
    · rw [hinit.flows_eq, hexpired]
      rfl
    · rw [hreasons, hexpired, total_zero]
      rfl
    · rw [hpp, hexpired, total_zero]
      rfl
  | processPacket m af caplen len received _ hcall ih =>
    have hlt := created_le_of_lt hn
    exact (ih hlt).processPacket hlt hcall
  | processEmulatorPacket c _ hcall ih =>
    have hlt := created_le_of_lt hn
    exact (ih hlt).processEmulatorPacket hlt hcall
  | forceExpire num _ ih =>
    obtain ⟨hinv, hseq, hflows, hcounters⟩ := (ih hn).table.forceExpire_cases num
    have hlive := (ih hn).live (congrArg (fun x => x.2.2) hcounters)
      (Or.inr ⟨hinv, hseq, congrArg List.length hflows⟩)
    rwa [TableInv.created_eq_self hseq] at hlive
  | checkExpired c _ halloc hcall ih => exact (ih hn).checkExpired hn halloc hcall
  | @deleteAllFlows n d s r ft _ hcall ih =>
    obtain ⟨hinv, -, hflows, hcounters, rfl⟩ := (ih hn).table.deleteAllFlows_cases hcall
    have hstatistics : ft.statistics = s.tracker.ft.statistics :=
      congrArg (fun x => x.2.2) hcounters
    have hexpired : ft.flowsExpired = s.tracker.ft.flowsExpired :=
      congrArg Statistics.flowsExpired hstatistics
    -- the flows that are deleted are counted as such
    have hcreated := (ih hn).flows
    refine ⟨hinv, ?_, ?_, ?_⟩
    · rw [hflows, hexpired, Int.toNat_natCast, List.length_nil]
      omega
    · rw [show ft.expired = s.tracker.ft.expired from congrArg Statistics.expired hstatistics,
        hexpired]
      exact (ih hn).expired
    · rw [show ft.flowsPp = s.tracker.ft.flowsPp from congrArg Statistics.flowsPp hstatistics,
        hexpired]
      exact (ih hn).flowsPp

/-- **Every flow is accounted for.** In each state that a run reaches while fewer than `2 ^ 64`
flows have been created, these are the flows in the table, whose number modulo `2 ^ 32` is
`num_flows`, the expired and the deleted ones. The counters of the reasons and those of the
protocols come to the number of expired flows. -/
theorem FlowRun.counts {s : Daemon} (h : FlowRun n d s) (hn : n < 2 ^ 64) :
    n = s.tracker.ft.flows.length + s.tracker.ft.flowsExpired.toNat + d ∧
      s.tracker.ft.numFlows.toNat = s.tracker.ft.flows.length % 2 ^ 32 ∧
      ∑ r, (s.tracker.ft.expired r).toNat = s.tracker.ft.flowsExpired.toNat ∧
      ∑ p, (s.tracker.ft.flowsPp p).toNat = s.tracker.ft.flowsExpired.toNat := by
  have hcounts := h.flowCounts hn
  refine ⟨hcounts.flows, ?_, ?_, ?_⟩
  · rw [hcounts.table.numFlows_eq, UInt32.toNat_ofNat']
  · rw [← hcounts.expired, total]
  · rw [← hcounts.flowsPp, total]

/-- A run of `k` packets with different ports. -/
theorem exists_flowRun_flood {k : ℕ} (hk : k ≤ 2 ^ 32) :
    ∃ s, FlowRun k 0 s ∧ s.tracker.ft.trackLevel = .full ∧
      (s.tracker.ft.flows.map Flow.key).Perm ((List.range k).map floodKey) := by
  induction k with
  | zero => exact ⟨{}, .init ⟨rfl, rfl, rfl, rfl⟩ rfl, rfl, .refl _⟩
  | succ k ih =>
    obtain ⟨s, hs, hlevel, hkeys⟩ := ih (Nat.le_of_succ_le hk)
    obtain ⟨tmp, hrec, hkey⟩ := packetRecord_floodPacket k
    have hlt : k < 2 ^ 64 := by omega
    obtain ⟨ft', hcall, hcount, hlevel', hkeys'⟩ := (hs.flowCounts hlt).table.newPacket hlt hlevel
      hrec (hkey ▸ floodKey_notMem hk hkeys)
    have hstep := hs.processPacket (floodPacket k) afInet 28 28 {} hcall
    rw [hcount] at hstep
    refine ⟨_, hstep, hlevel', hkeys'.trans ?_⟩
    rw [List.range_succ, List.map_append, hkey]
    exact (hkeys.cons _).trans (List.perm_append_singleton _ _).symm

/-- With `2 ^ 32` live flows `num_flows` is zero, and no flow has expired or been deleted. -/
theorem flowCounts_wrap :
    ∃ s, FlowRun (2 ^ 32) 0 s ∧
      2 ^ 32 ≠ s.tracker.ft.numFlows.toNat + s.tracker.ft.flowsExpired.toNat + 0 := by
  obtain ⟨s, hs, -, hkeys⟩ := exists_flowRun_flood (Nat.le_refl (2 ^ 32))
  have hlength : s.tracker.ft.flows.length = 2 ^ 32 := by
    simpa using hkeys.length_eq
  have hcounts := hs.flowCounts (by norm_num)
  have hflows := hcounts.flows
  refine ⟨s, hs, ?_⟩
  rw [hcounts.table.numFlows_eq, hlength, UInt32.toNat_ofNat', Nat.mod_self]
  omega

/-- Three flows that expire, and a packet after them. -/
theorem flowCounts_expired :
    ∃ s, FlowRun 4 0 s ∧ s.tracker.ft.flowsExpired = 3 ∧
      4 = s.tracker.ft.flows.length + s.tracker.ft.flowsExpired.toNat + 0 ∧
      s.tracker.ft.numFlows.toNat = s.tracker.ft.flows.length % 2 ^ 32 ∧
      ∑ r, (s.tracker.ft.expired r).toNat = s.tracker.ft.flowsExpired.toNat ∧
      ∑ p, (s.tracker.ft.flowsPp p).toNat = s.tracker.ft.flowsExpired.toNat := by
  obtain ⟨s, hs, -, hkeys⟩ := @exists_flowRun_flood 3 (by norm_num)
  have hinv := (hs.flowCounts (by norm_num)).table
  have hlength : s.tracker.ft.flows.length = 3 := by
    simpa using hkeys.length_eq
  obtain ⟨r, s', hcall, hnil⟩ := hinv.exists_drained 3 hlength.le
  have hdrained := (hs.forceExpire 3).checkExpired {} rfl hcall
  have hcounts := hdrained.flowCounts (by norm_num)
  -- the next packet finds no flow
  obtain ⟨r', ft, hpacket, -⟩ :=
    hcounts.table.processPacket (by norm_num) (floodPacket 0) afInet 28 28 {}
  obtain ⟨tmp, hrecord, -⟩ := packetRecord_floodPacket 0
  have hstep := hcounts.table.processPacket_step (by norm_num) hpacket
  rw [hrecord] at hstep
  have hrun := hdrained.processPacket (floodPacket 0) afInet 28 28 {} hpacket
  cases hstep with
  | bad hnone => contradiction
  | filed hsome _ hfiled =>
    cases hfiled with
    | added flow hfind _ _ _ => rw [FlowTrack.flowFind, hnil] at hfind; cases hfind
    | started _ hinv' hperm =>
      rw [hcounts.table.created_eq_succ hinv'] at hrun
      have hall := hrun.counts (by norm_num)
      have hlive : ft.flows.length = 1 := by
        simpa [hnil] using hperm.length_eq
      refine ⟨_, hrun, ?_, hall⟩
      have hflows : 4 = ft.flows.length + ft.flowsExpired.toNat + 0 := hall.1
      apply UInt64.toNat_inj.mp
      change ft.flowsExpired.toNat = 3
      omega

end Softflowd
