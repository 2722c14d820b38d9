import NetworkMonitoring.Softflowd.MonitorTables
import NetworkMonitoring.Softflowd.NetFlow5Batches
import NetworkMonitoring.Softflowd.Pointers
import NetworkMonitoring.Softflowd.Runs
import Mathlib.Data.Multiset.Bind

/-!
# softflowd — what the emulator's monitors get exported

In emulator mode `check_expired` loops over the monitors, the two directions and the expired flows,
and sends for each monitor and direction the flows that this monitor has reported. The monitor is
selected by writing to the flow before the send function reads it.

* `slotReport` is what one expired flow contributes to one call of the send function, and
  `Flow.slotReports` what is due of one direction of a flow: a record for every slot of its table
  that has counted octets.
* `ExportInv` is the invariant of the runs of messages: the list of monitors has no duplicates and
  covers the tables of all flows.

## Main results

* `emulatorExport_exactlyOnce`: the records sent are those due, each exactly once, and each in a
  datagram whose header names its monitor.
-/

namespace Softflowd

open Bytes ErrorLoops FilledTable Function InetText OrderedSet

/-! ## Records that are due -/

/-- The record of slot `n` of direction `d` of a flow. -/
def Flow.slotRecord (f : Flow) (boot : Timeval) (d : Dir) (n : Fin maxEmulators) : Nf5Flow where
  emulatorMonitorAdr := f.emulatorMonitorAdr d n
  srcAs := f.asSrc d
  destAs := f.asDst d.other
  srcIp := (f.addr d).v4
  destIp := (f.addr d.other).v4
  srcPort := f.port d
  destPort := f.port d.other
  flowPackets := htonl (f.monitorStat d n).packets
  flowOctets := htonl (f.monitorStat d n).octets
  flowStart := htonl (timevalSubMs f.flowStart boot)
  flowFinish := htonl (timevalSubMs f.flowLast boot)
  tcpFlags := f.tcpFlags d
  protocol := f.protocol

/-- The records due of direction `d` of a flow, with the monitors they are due to: one for every
slot in use that has counted octets. -/
def Flow.slotReports (f : Flow) (boot : Timeval) (d : Dir) : Multiset (InAddr × Nf5Flow) :=
  (Finset.univ.filter fun n : Fin maxEmulators =>
    n.val < (f.numberOfMonitors d).toNat ∧ 0 < (f.monitorStat d n).octets).val.map fun n =>
      (f.emulatorMonitorAdr d n, f.slotRecord boot d n)

/-- The records of a list of datagrams, with the monitors the headers name. -/
def nf5Reports (ds : List Nf5Datagram) : Multiset (InAddr × Nf5Flow) :=
  (ds.flatMap fun D => D.flows.map fun r => (D.hdr.emulatorMonitorAdr, r) :)

/-- What a flow contributes to the call for the monitor `a` and the direction `d`. -/
def slotReport (boot : Timeval) (d : Dir) (a : InAddr) (f : Flow) : List (InAddr × Nf5Flow) :=
  match slotOf (f.emulatorMonitorAdr d) (f.numberOfMonitors d) a with
  | some n => if 0 < (f.monitorStat d n).octets then [(a, f.slotRecord boot d n)] else []
  | none => []

/-- Selecting a flow for a monitor does not change what it contributes. -/
@[simp]
theorem slotReport_marked (boot : Timeval) (d d' : Dir) (a a' : InAddr) (f : Flow) :
    slotReport boot d a (marked d' a' f).1 = slotReport boot d a f := by
  unfold marked
  split <;> rfl

@[simp]
theorem af_marked (d : Dir) (a : InAddr) (f : Flow) : (marked d a f).1.af = f.af := by
  unfold marked
  split <;> rfl

/-- A monitor that has not reported the flow gets nothing. -/
theorem slotReport_eq_nil {boot : Timeval} {d : Dir} {a : InAddr} {f : Flow}
    (h : a ∉ f.slots d) : slotReport boot d a f = [] := by
  have hslot : slotOf (f.emulatorMonitorAdr d) (f.numberOfMonitors d) a = none :=
    firstSlot_eq_none.mpr h
  simp only [slotReport, hslot]

/-- A monitor gets its own records. -/
theorem monitor_of_mem_slotReport {boot : Timeval} {d : Dir} {a : InAddr} {f : Flow}
    {x : InAddr × Nf5Flow} (h : x ∈ slotReport boot d a f) : x.2.emulatorMonitorAdr = a := by
  unfold slotReport at h
  split at h
  · rename_i n hslot
    split at h
    · obtain rfl := List.mem_singleton.mp h
      exact (firstSlot_eq_some hslot).2
    · cases h
  · cases h

/-- Only the monitors in the table of a flow contribute. -/
theorem flatMap_slotReport_filter (R : List InAddr) (f : Flow) (boot : Timeval) (d : Dir) :
    R.flatMap (fun a => slotReport boot d a f) =
      (R.filter (· ∈ f.slots d)).flatMap fun a => slotReport boot d a f := by
  induction R with
  | nil => rfl
  | cons a R ih =>
    by_cases ha : a ∈ f.slots d
    · simp [ha, ih]
    · simp [ha, ih, slotReport_eq_nil ha]

/-- The monitors of the slots `used` contribute the records of these slots. -/
theorem flatMap_slotReport_used {f : Flow} {d : Dir} (hnd : (f.slots d).Nodup) (boot : Timeval)
    {used : List (Fin maxEmulators)} (hused : ∀ n ∈ used, n.val < (f.numberOfMonitors d).toNat) :
    (used.map (f.emulatorMonitorAdr d)).flatMap (fun a => slotReport boot d a f) =
      (used.filter fun n => 0 < (f.monitorStat d n).octets).map fun n =>
        (f.emulatorMonitorAdr d n, f.slotRecord boot d n) := by
  induction used with
  | nil => rfl
  | cons n used ih =>
    have hslot : slotOf (f.emulatorMonitorAdr d) (f.numberOfMonitors d)
        (f.emulatorMonitorAdr d n) = some n := firstSlot_eq hnd (hused n List.mem_cons_self)
    have hrest := ih fun m hm => hused m (List.mem_cons_of_mem n hm)
    rw [List.map_cons, List.flatMap_cons, hrest]
    by_cases hoct : 0 < (f.monitorStat d n).octets
    · simp [slotReport, hslot, hoct]
    · simp [slotReport, hslot, hoct]

/-- A list without duplicates that covers the table of a flow yields every record due once. -/
theorem flatMap_slotReport {R : List InAddr} {f : Flow} (hR : R.Nodup) (h : f.MonitorsOk R)
    (boot : Timeval) (d : Dir) :
    (R.flatMap fun a => slotReport boot d a f : Multiset (InAddr × Nf5Flow)) =
      f.slotReports boot d := by
  -- the monitors of `R` that stand in the table are the slots in use, in another order
  have hperm : (R.filter (· ∈ f.slots d)).Perm (f.slots d) := by
    refine (List.perm_ext_iff_of_nodup (hR.filter _) (h.nodup d)).mpr fun a => ?_
    simp only [List.mem_filter, decide_eq_true_eq]
    exact ⟨And.right, fun ha => ⟨h.subset d ha, ha⟩⟩
  set used := (List.finRange maxEmulators).take (f.numberOfMonitors d).toNat with hused
  have hslots : f.slots d = used.map (f.emulatorMonitorAdr d) := filled_eq_map _ _
  have hfinset : (Finset.univ.filter fun n : Fin maxEmulators =>
      n.val < (f.numberOfMonitors d).toNat ∧ 0 < (f.monitorStat d n).octets).val =
        (used.filter fun n => 0 < (f.monitorStat d n).octets : List (Fin maxEmulators)) := by
    have hnd : used.Nodup := (List.nodup_finRange _).sublist (List.take_sublist _ _)
    refine (Multiset.Nodup.ext (Finset.nodup _)
      (Multiset.coe_nodup.mpr (hnd.filter _))).mpr fun n => ?_
    simp [hused, mem_take_finRange]
  calc (R.flatMap fun a => slotReport boot d a f : Multiset (InAddr × Nf5Flow))
      = ((f.slots d).flatMap fun a => slotReport boot d a f : List _) := by
        rw [flatMap_slotReport_filter]
        exact Quotient.sound (hperm.flatMap_right _)
    _ = ((used.filter fun n => 0 < (f.monitorStat d n).octets).map fun n =>
          (f.emulatorMonitorAdr d n, f.slotRecord boot d n) : List _) := by
        rw [hslots, flatMap_slotReport_used (h.nodup d) boot fun n hn => mem_take_finRange.mp hn]
    _ = f.slotReports boot d := by
        rw [Flow.slotReports, hfinset]
        rfl

/-! ## One call of the send function -/

/-- The records of a selected flow. -/
theorem records_selectFlow {f : Flow} {d : Dir} {a : InAddr} {n : Fin maxEmulators}
    (haf : f.af = afInet) (hslot : f.emulatorMonitorAdr d n = a) (now boot : Timeval) :
    V5Env.records ⟨true, now, boot, d.val⟩ (selectFlow a n f) =
      if 0 < (f.monitorStat d n).octets then [f.slotRecord boot d n] else [] := by
  -- the index of the slot goes through a `uint16_t`, which holds it
  have hidx : (UInt16.ofNat n.val).toNat = n.val := by
    have hn : n.val < 50 := n.isLt
    rw [UInt16.toNat_ofNat']
    omega
  have hstat : (selectFlow a n f).selectedStat = fun d => f.monitorStat d n := by
    ext d
    simp [Flow.selectedStat, selectFlow, hidx]
  have hrecord : V5Env.record ⟨true, now, boot, d.val⟩ (selectFlow a n f) d =
      f.slotRecord boot d n := by
    simp only [V5Env.record, V5Env.stat, hstat, if_true]
    simp [Flow.slotRecord, selectFlow, inetPton_inetNtoa, hslot]
  have haf' : (selectFlow a n f).af = afInet := haf
  have hselects : V5Env.selects ⟨true, now, boot, d.val⟩ (selectFlow a n f) = fun e =>
      decide (0 < (f.monitorStat e n).octets) && ((d.val : ℤ) == e.val) := by
    ext e
    simp [V5Env.selects, V5Env.stat, hstat]
  have hfilter : [0, 1].filter (V5Env.selects ⟨true, now, boot, d.val⟩ (selectFlow a n f)) =
      if 0 < (f.monitorStat d n).octets then [d] else [] := by
    rw [hselects]
    rcases (by decide : ∀ d : Dir, d = 0 ∨ d = 1) d with rfl | rfl
    · by_cases hoct : 0 < (f.monitorStat 0 n).octets <;> simp [hoct]
    · by_cases hoct : 0 < (f.monitorStat 1 n).octets <;> simp [hoct]
  rw [V5Env.records, if_pos haf', hfilter]
  split
  · rw [List.map_cons, List.map_nil, hrecord]
  · rfl

/-- The flows that are handed to the send function contribute their records. -/
theorem flatMap_records_marked {fs : List Flow} {d : Dir} (a : InAddr)
    (haf : ∀ f ∈ fs, f.af = afInet) (now boot : Timeval) :
    ((((fs.map (marked d a)).filter Prod.snd).map Prod.fst).flatMap
        (V5Env.records ⟨true, now, boot, d.val⟩)).map (fun r => (a, r)) =
      fs.flatMap (slotReport boot d a) := by
  induction fs with
  | nil => rfl
  | cons f fs ih =>
    have hrest := ih fun g hg => haf g (List.mem_cons_of_mem f hg)
    have hf := haf f List.mem_cons_self
    rw [List.flatMap_cons, ← hrest]
    cases hslot : slotOf (f.emulatorMonitorAdr d) (f.numberOfMonitors d) a with
    | none =>
      have hmark : marked d a f = (f, false) := by simp only [marked, hslot]
      have hreport : slotReport boot d a f = [] := by simp only [slotReport, hslot]
      simp [hmark, hreport]
    | some n =>
      have hmark : marked d a f = (selectFlow a n f, true) := by simp only [marked, hslot]
      have hreport : slotReport boot d a f =
          if 0 < (f.monitorStat d n).octets then [(a, f.slotRecord boot d n)] else [] := by
        simp only [slotReport, hslot]
      rw [List.map_cons, hmark, hreport, List.filter_cons_of_pos rfl, List.map_cons,
        List.flatMap_cons, records_selectFlow hf (firstSlot_eq_some hslot).2, List.map_append]
      split <;> rfl

/-- Every record of a call for the monitor `a` is in a datagram whose header names `a`. -/
theorem nf5Reports_eq {env : V5Env} {exported : UInt64} {ds : List Nf5Datagram} {a : InAddr}
    (hnum : Numbered env exported ds) (ha : ∀ r ∈ nf5Records ds, r.emulatorMonitorAdr = a) :
    nf5Reports ds = ((nf5Records ds).map fun r => (a, r) : List (InAddr × Nf5Flow)) := by
  have hhdr : ∀ D ∈ ds, D.hdr.emulatorMonitorAdr = a := by
    intro D hD
    obtain ⟨pre, post, rfl⟩ := List.append_of_mem hD
    have hmon := (hnum pre D post rfl).monitor
    cases hflows : D.flows with
    | nil => simp [hflows] at hmon
    | cons r rs =>
      have hr : r ∈ nf5Records (pre ++ D :: post) :=
        List.mem_flatMap.mpr ⟨D, hD, hflows ▸ List.mem_cons_self⟩
      rw [hflows] at hmon
      exact (Option.some.inj hmon).symm.trans (ha r hr)
  unfold nf5Reports nf5Records
  rw [List.map_flatMap]
  congr 1
  exact List.flatMap_congr fun D hD => by rw [hhdr D hD]

/-- The expired flows can be exported for the monitors `R`. -/
structure ExportState.Ready (R : List InAddr) (st : ExportState) : Prop where
  tables : ∀ f ∈ st.expired, f.MonitorsOk R
  af_eq : ∀ f ∈ st.expired, f.af = afInet
  sends : ∀ k, st.exporter.net.sendFails k = false

/-- The datagrams `ds` lead from `st` to `st'`, and what the flows contribute does not change. -/
structure ExportState.Sent (st st' : ExportState) (ds : List Nf5Datagram) : Prop where
  sent_eq : st'.exporter.net.sent = st.exporter.net.sent ++ ds.map Nf5Datagram.bytes
  boot_eq : st'.ft.systemBootTime = st.ft.systemBootTime
  reports_eq : ∀ boot d a,
    st'.expired.flatMap (slotReport boot d a) = st.expired.flatMap (slotReport boot d a)

theorem ExportState.Sent.trans {st st₁ st₂ : ExportState} {ds ds' : List Nf5Datagram}
    (h₁ : st.Sent st₁ ds) (h₂ : st₁.Sent st₂ ds') : st.Sent st₂ (ds ++ ds') := by
  refine ⟨?_, h₂.boot_eq.trans h₁.boot_eq, fun boot d a => ?_⟩
  · rw [h₂.sent_eq, h₁.sent_eq, List.map_append, List.append_assoc]
  · rw [h₂.reports_eq, h₁.reports_eq]

theorem nf5Reports_append (ds ds' : List Nf5Datagram) :
    nf5Reports (ds ++ ds') = nf5Reports ds + nf5Reports ds' := by
  unfold nf5Reports
  rw [List.flatMap_append, Multiset.coe_add]

/-- The flows that `exportDirection` hands to the send function are selected for a slot. -/
theorem selectedMonitorIndex_selected {fs : List Flow} {d : Dir} {a : InAddr} {f : Flow}
    (h : f ∈ ((fs.map (marked d a)).filter Prod.snd).map Prod.fst) :
    f.selectedMonitorIndex.toNat < maxEmulators := by
  obtain ⟨⟨f, b⟩, hmem, rfl⟩ := List.mem_map.mp h
  obtain ⟨hmem, hb⟩ := List.mem_filter.mp hmem
  obtain ⟨f₀, -, heq⟩ := List.mem_map.mp hmem
  obtain ⟨rfl, rfl⟩ := Prod.mk.inj heq
  exact selectedMonitorIndex_marked hb

/-- With the tables of the flows in order, `exportDirection` is the call of the send function. -/
theorem exportDirection_eq {st : ExportState} {R : List InAddr} (h : st.Ready R) (a : InAddr)
    (d : Dir) (func : NetflowSendFunc) :
    exportDirection func a st d =
      func (((st.expired.map (marked d a)).filter Prod.snd).map Prod.fst) st.ft.flowsExported
        st.ft.systemBootTime d.val st.exporter >>= fun x => .ok {
          ft := { st.ft with
            flowsExported := x.2.1
            packetsSent :=
              if x.1 > 0 then st.ft.packetsSent + UInt64.ofInt x.1 else st.ft.packetsSent }
          exporter := x.2.2
          expired := (st.expired.map (marked d a)).map Prod.fst
          r := x.1 } := by
  have hmarks : st.expired.mapM (markFlow d a) = .ok (st.expired.map (marked d a)) :=
    mapM_eq_ok fun f hf => markFlow_eq (h.tables f hf) d a
  unfold exportDirection
  rw [hmarks]
  rfl

/-- One monitor and one direction. -/
theorem exportDirection_spec {st : ExportState} {R : List InAddr} (h : st.Ready R) (a : InAddr)
    (d : Dir) (now : Timeval) :
    ∃ st' ds, exportDirection (sendNetflowV5 true now) a st d = .ok st' ∧ st'.Ready R ∧
      st.Sent st' ds ∧
      nf5Reports ds = (st.expired.flatMap (slotReport st.ft.systemBootTime d a) : List _) := by
  obtain ⟨ds, hcall, hnum, hrec⟩ := sendNetflowV5_spec true now st.ft.systemBootTime d.val
    (((st.expired.map (marked d a)).filter Prod.snd).map Prod.fst) st.ft.flowsExported st.exporter
    h.sends fun f hf => selectedMonitorIndex_selected hf
  have hreports := flatMap_records_marked (d := d) a h.af_eq now st.ft.systemBootTime
  rw [← hrec] at hreports
  -- the header of a datagram names the monitor of its first record, so all of them must name `a`
  have hmon : ∀ r ∈ nf5Records ds, r.emulatorMonitorAdr = a := by
    intro r hr
    have hmem : (a, r) ∈ st.expired.flatMap (slotReport st.ft.systemBootTime d a) :=
      hreports ▸ List.mem_map_of_mem hr
    obtain ⟨f, -, hf⟩ := List.mem_flatMap.mp hmem
    exact monitor_of_mem_slotReport hf
  have hdir := exportDirection_eq h a d (sendNetflowV5 true now)
  rw [hcall] at hdir
  have hexpired : ∀ f ∈ (st.expired.map (marked d a)).map Prod.fst,
      ∃ f₀ ∈ st.expired, f = (marked d a f₀).1 := by
    intro f hf
    obtain ⟨x, hx, rfl⟩ := List.mem_map.mp hf
    obtain ⟨f₀, hf₀, rfl⟩ := List.mem_map.mp hx
    exact ⟨f₀, hf₀, rfl⟩
  -- marking a flow touches neither its tables nor its family
  refine ⟨_, ds, hdir, ⟨?_, ?_, h.sends⟩, ⟨rfl, rfl, fun boot d' a' => ?_⟩, ?_⟩
  · intro f hf
    obtain ⟨f₀, hf₀, rfl⟩ := hexpired f hf
    exact (h.tables f₀ hf₀).congr (monitorTables_marked d a f₀)
  · intro f hf
    obtain ⟨f₀, hf₀, rfl⟩ := hexpired f hf
    rw [af_marked]
    exact h.af_eq f₀ hf₀
  · simp only [List.map_map, List.flatMap_map, Function.comp_apply, slotReport_marked]
  · rw [nf5Reports_eq hnum hmon, hreports]

/-! ## The loop over the monitors -/

/-- What the flows contribute to the iteration for the monitor `a`. -/
def monitorReports (boot : Timeval) (fs : List Flow) (a : InAddr) : List (InAddr × Nf5Flow) :=
  fs.flatMap (slotReport boot 0 a) ++ fs.flatMap (slotReport boot 1 a)

/-- The monitor of iteration `m`. -/
def Monitors.adr (ms : Monitors) (m : ℕ) : InAddr :=
  if h : m < maxEmulators then ms.adrs ⟨m, h⟩ else fun _ => 0

/-- One monitor. -/
theorem exportMonitor_spec {st : ExportState} {R : List InAddr} (ms : Monitors) {m : ℕ}
    (h : st.Ready R) (hm : m < maxEmulators) (now : Timeval) :
    ∃ st' ds, exportMonitor (sendNetflowV5 true now) ms st m = .ok st' ∧ st'.Ready R ∧
      st.Sent st' ds ∧
      nf5Reports ds = (monitorReports st.ft.systemBootTime st.expired (ms.adr m) : List _) := by
  obtain ⟨st₁, ds₁, hcall₁, h₁, hsent₁, hrep₁⟩ :=
    exportDirection_spec h (ms.adrs ⟨m, hm⟩) 0 now
  obtain ⟨st₂, ds₂, hcall₂, h₂, hsent₂, hrep₂⟩ :=
    exportDirection_spec h₁ (ms.adrs ⟨m, hm⟩) 1 now
  refine ⟨st₂, ds₁ ++ ds₂, ?_, h₂, hsent₁.trans hsent₂, ?_⟩
  · unfold exportMonitor
    rw [dif_pos hm, hcall₁]
    exact hcall₂
  · have hadr : ms.adr m = ms.adrs ⟨m, hm⟩ := dif_pos hm
    rw [nf5Reports_append, hrep₁, hrep₂, hsent₁.boot_eq, hsent₁.reports_eq, monitorReports, hadr,
      Multiset.coe_add]

theorem monitorReports_congr {st st' : ExportState} {ds : List Nf5Datagram} (h : st.Sent st' ds) :
    monitorReports st'.ft.systemBootTime st'.expired =
      monitorReports st.ft.systemBootTime st.expired := by
  ext a
  simp only [monitorReports, h.boot_eq, h.reports_eq]

/-- The iterations for the monitors `is`. -/
theorem foldlM_exportMonitor {R : List InAddr} (ms : Monitors) (now : Timeval) (is : List ℕ)
    {st : ExportState} (h : st.Ready R) (his : ∀ m ∈ is, m < maxEmulators) :
    ∃ st' ds, is.foldlM (exportMonitor (sendNetflowV5 true now) ms) st = .ok st' ∧
      st.Sent st' ds ∧
      nf5Reports ds = ((is.map ms.adr).flatMap
        (monitorReports st.ft.systemBootTime st.expired) : List _) := by
  induction is generalizing st with
  | nil => exact ⟨st, [], rfl, ⟨by simp, rfl, fun _ _ _ => rfl⟩, rfl⟩
  | cons m is ih =>
    obtain ⟨st₁, ds₁, hcall₁, h₁, hsent₁, hrep₁⟩ :=
      exportMonitor_spec ms h (his m List.mem_cons_self) now
    obtain ⟨st₂, ds₂, hcall₂, hsent₂, hrep₂⟩ := ih h₁ fun k hk => his k (List.mem_cons_of_mem m hk)
    refine ⟨st₂, ds₁ ++ ds₂, ?_, hsent₁.trans hsent₂, ?_⟩
    · rw [List.foldlM_cons, hcall₁]
      exact hcall₂
    · rw [nf5Reports_append, hrep₁, hrep₂, monitorReports_congr hsent₁, List.map_cons,
        List.flatMap_cons, Multiset.coe_add]

/-- A list of monitors without duplicates that covers the tables of the flows yields what is due
of each of them. -/
theorem flatMap_monitorReports {R : List InAddr} {fs : List Flow} (hR : R.Nodup)
    (h : ∀ f ∈ fs, f.MonitorsOk R) (boot : Timeval) :
    (R.flatMap (monitorReports boot fs) : Multiset (InAddr × Nf5Flow)) =
      (fs : Multiset Flow).bind fun f => f.slotReports boot 0 + f.slotReports boot 1 := by
  have hswap : ∀ d : Dir, (R.flatMap fun a => fs.flatMap (slotReport boot d a) : Multiset _) =
      (fs : Multiset Flow).bind fun f => f.slotReports boot d := by
    intro d
    calc (R.flatMap fun a => fs.flatMap (slotReport boot d a) : Multiset (InAddr × Nf5Flow))
        = (R : Multiset InAddr).bind fun a => (fs : Multiset Flow).bind fun f =>
            (slotReport boot d a f : Multiset _) := by
          simp only [Multiset.coe_bind]
      _ = (fs : Multiset Flow).bind fun f => (R : Multiset InAddr).bind fun a =>
            (slotReport boot d a f : Multiset _) := Multiset.bind_bind _ _
      _ = (fs : Multiset Flow).bind fun f => f.slotReports boot d := by
          refine Multiset.bind_congr fun f hf => ?_
          rw [Multiset.coe_bind]
          exact flatMap_slotReport hR (h f hf) boot d
  calc (R.flatMap (monitorReports boot fs) : Multiset (InAddr × Nf5Flow))
      = (R.flatMap fun a => fs.flatMap (slotReport boot 0 a) : Multiset _) +
          (R.flatMap fun a => fs.flatMap (slotReport boot 1 a) : Multiset _) := by
        rw [Multiset.coe_add]
        exact Quotient.sound (List.flatMap_append_perm R _ _).symm
    _ = (fs : Multiset Flow).bind fun f => f.slotReports boot 0 + f.slotReports boot 1 := by
        rw [hswap 0, hswap 1, Multiset.bind_add]

/-! ## Runs of messages -/

/-- The list of monitors has no duplicates and covers the tables of all flows. -/
structure ExportInv (t : Tracker) : Prop where
  pointers : PointerInv t.ft
  nbr_le : t.monitors.nbrMonitors.toNat ≤ maxEmulators
  nodup : t.monitors.registered.Nodup
  tables : ∀ f ∈ t.ft.flows, f.MonitorsOk t.monitors.registered
  af_eq : ∀ f ∈ t.ft.flows, f.af = afInet

/-- A successful message leaves the tables alone, or it names a monitor that is then in the
list. -/
theorem EmulatorStep.monitors_of_ok {s s' : Tracker} {c : EmulatorCall}
    (hstep : EmulatorStep s c .ok s') :
    (s'.monitors = s.monitors ∧ s'.ft.flows = s.ft.flows) ∨
      ∃ em a, c.monitor = some a ∧ inetPton em = some a ∧
        addMonitor s.monitors em = .ok s'.monitors := by
  cases hstep with
  | created _ _ _ hpart haddr hadd =>
    exact .inr ⟨_, _, (EmulatorCall.monitor_eq hpart).trans haddr, haddr, hadd⟩
  | ignored => exact .inl ⟨rfl, FlowTrack.flows_counted _ _⟩
  | updated _ _ _ _ hpart haddr hadd _ _ _ _ =>
    exact .inr ⟨_, _, (EmulatorCall.monitor_eq hpart).trans haddr, haddr, hadd⟩

/-- A successful message keeps the invariant. -/
theorem ExportInv.step {s s' : Tracker} {c : EmulatorCall} (hstep : EmulatorStep s c .ok s')
    (h : ExportInv s) : ExportInv s' := by
  have haf : ∀ f ∈ s'.ft.flows, f.af = afInet := by
    refine hstep.forall_flows ?_ ?_ ?_ ?_ h.af_eq
    · intro f f' hkey _ hf
      exact (congrArg Prod.fst hkey).trans hf
    · exact fun ndx tmp htmp => htmp.af_eq
    · exact fun ndx a f _ hf => hf
    · intro ndx a tmp f f' _ hf hcount
      have hid := congrArg (fun x => x.2.2.2.1) (ident_of_countMonitor hcount)
      exact hid.trans hf
  -- either the message registers no monitor and the flows are the same, or it went through
  -- `add_monitor`
  rcases hstep.monitors_of_ok with ⟨hmon, hflows⟩ | ⟨em, a, ha, haddr, hadd⟩
  · refine ⟨hstep.pointerInv h.pointers, ?_, ?_, ?_, haf⟩
    · exact hmon ▸ h.nbr_le
    · exact hmon ▸ h.nodup
    · rw [hmon, hflows]
      exact h.tables
  · obtain ⟨hsub, hmem⟩ := registered_addMonitor hadd
    refine ⟨hstep.pointerInv h.pointers, ?_, ?_, ?_, haf⟩
    · rcases addMonitor_cases hadd with ⟨heq, -⟩ | ⟨hnone, -⟩ | ⟨b, -, -, hsucc, hlt, -⟩
      · exact heq ▸ h.nbr_le
      · rw [haddr] at hnone
        cases hnone
      · omega
    · rcases addMonitor_cases hadd with ⟨heq, -⟩ | ⟨hnone, -⟩ | ⟨b, -, hnew, -, -, happ⟩
      · exact heq ▸ h.nodup
      · rw [haddr] at hnone
        cases hnone
      · rw [happ]
        refine List.nodup_append.mpr ⟨h.nodup, List.nodup_singleton b, ?_⟩
        rintro x hx y hy rfl
        exact hnew (List.mem_singleton.mp hy ▸ hx)
    · refine hstep.monitorsOk (fun b hb => ?_) fun f hf => (h.tables f hf).mono hsub
      obtain rfl := Option.some.inj (ha.symm.trans hb)
      exact hmem a haddr

/-- The invariant after a run. -/
theorem ExportInv.run {s t : Tracker} {cs : List EmulatorCall} (hs : s.Empty)
    (hrun : runOk s cs = some t) : ExportInv t := by
  apply runOk_induction (fun _ _ _ hstep h => h.step hstep) hrun
  have hreg : s.monitors.registered = [] := by
    rw [Monitors.registered, hs.nbrMonitors_eq]
    rfl
  refine ⟨.empty hs.flows_eq hs.expiries_eq, ?_, ?_, ?_, ?_⟩
  · rw [hs.nbrMonitors_eq]
    exact Nat.zero_le _
  · rw [hreg]
    exact List.nodup_nil
  all_goals
    rw [hs.flows_eq]
    exact fun f hf => absurd hf List.not_mem_nil

/-- The flows the scan hands on are flows of the table. -/
theorem mem_of_mem_expiredFlows {now : Timeval} {ex : ExpireMode} {reallocOk : Expiry → Bool}
    {ft : FlowTrack} {f : Flow} (h : f ∈ expiredFlows now ex reallocOk ft) : f ∈ ft.flows := by
  obtain ⟨e, -, hat⟩ := List.mem_filterMap.mp h
  exact (FlowTrack.mem_of_flowAt hat).1

/-- A scan that takes out no flow sends nothing. -/
theorem checkExpired_of_nil {c : ExpiryCall} {t : Tracker} {ex : Exporter} {ft : FlowTrack}
    (hscan : scanExpired c.now c.ex c.reallocOk t.ft = .ok (ft, [])) :
    checkExpired c ⟨t, ex⟩ = .ok (0, ⟨⟨ft, t.monitors⟩, ex⟩) := by
  unfold checkExpired
  rw [hscan]
  rfl

/-- Otherwise the flows that it takes out are exported. -/
theorem checkExpired_of_export {c : ExpiryCall} {t : Tracker} {ex : Exporter} {ft : FlowTrack}
    {flows : List Flow} {st : ExportState}
    (hscan : scanExpired c.now c.ex c.reallocOk t.ft = .ok (ft, flows)) (hne : flows ≠ [])
    (hexport : exportExpired c t.monitors { ft := ft, exporter := ex, expired := flows } = .ok st) :
    checkExpired c ⟨t, ex⟩ = .ok (if st.r = -1 then -1 else (flows.length : ℤ),
      { tracker := { t with ft := st.expired.foldl updateStatistics st.ft }
        exporter := st.exporter }) := by
  have hnonempty : flows.isEmpty = false := by simpa using hne
  unfold checkExpired
  rw [hscan]
  change (if flows.isEmpty then _ else _) = _
  rw [hnonempty, if_neg Bool.false_ne_true, hexport]
  rfl

/-- **Export per monitor and direction.** After a run of successful messages, `check_expired` in
emulator mode with the NetFlow v5 exporter sends, for every expired flow, every direction and every
slot in use that has counted octets, exactly one record, in a datagram whose header names the
monitor of the slot. -/
theorem emulatorExport_exactlyOnce {s t : Tracker} {cs : List EmulatorCall} (hs : s.Empty)
    (hrun : runOk s cs = some t) {c : ExpiryCall} {now : Timeval} {ex : Exporter}
    (hemulator : c.usingEmulator = true) (htarget : c.target = some (sendNetflowV5 true now))
    (hsend : ∀ k, ex.net.sendFails k = false) :
    ∃ r s' ds, checkExpired c ⟨t, ex⟩ = .ok (r, s') ∧
      s'.exporter.net.sent = ex.net.sent ++ ds.map Nf5Datagram.bytes ∧
      nf5Reports ds = (expiredFlows c.now c.ex c.reallocOk t.ft : Multiset Flow).bind fun f =>
        f.slotReports t.ft.systemBootTime 0 + f.slotReports t.ft.systemBootTime 1 := by
  have hinv := ExportInv.run hs hrun
  obtain ⟨ft, hscan, hboot⟩ := hinv.pointers.scanExpired c.now c.ex c.reallocOk
  set expired := expiredFlows c.now c.ex c.reallocOk t.ft with hexpired
  by_cases hnil : expired = []
  · rw [hnil] at hscan ⊢
    exact ⟨0, ⟨⟨ft, t.monitors⟩, ex⟩, [], checkExpired_of_nil hscan, by simp, rfl⟩
  · have hflow : ∀ f ∈ expired.map Flow.retire, ∃ f₀ ∈ t.ft.flows, f = f₀.retire := by
      intro f hf
      obtain ⟨f₀, hf₀, rfl⟩ := List.mem_map.mp hf
      exact ⟨f₀, mem_of_mem_expiredFlows hf₀, rfl⟩
    have hready : ExportState.Ready t.monitors.registered
        { ft := ft, exporter := ex, expired := expired.map Flow.retire } := by
      refine ⟨fun f hf => ?_, fun f hf => ?_, hsend⟩
      · obtain ⟨f₀, hf₀, rfl⟩ := hflow f hf
        exact (hinv.tables f₀ hf₀).congr rfl
      · obtain ⟨f₀, hf₀, rfl⟩ := hflow f hf
        exact hinv.af_eq f₀ hf₀
    -- the loop runs over the registered monitors, and each of them stands there once
    obtain ⟨st, ds, hexport, hsent, hrep⟩ := foldlM_exportMonitor t.monitors now
      (List.range t.monitors.nbrMonitors.toNat) hready
      fun m hm => Nat.lt_of_lt_of_le (List.mem_range.mp hm) hinv.nbr_le
    have hadrs : (List.range t.monitors.nbrMonitors.toNat).map t.monitors.adr =
        t.monitors.registered :=
      map_range_eq_filled hinv.nbr_le fun i => dif_pos i.isLt
    have hexport' : exportExpired c t.monitors
        { ft := ft, exporter := ex, expired := expired.map Flow.retire } = .ok st := by
      unfold exportExpired
      rw [htarget]
      simp only [hemulator, if_true]
      exact hexport
    have hcall := checkExpired_of_export hscan (by simpa using hnil) hexport'
    refine ⟨_, _, ds, hcall, hsent.sent_eq, ?_⟩
    rw [hrep, hadrs, flatMap_monitorReports hinv.nodup hready.tables, hboot]
    rw [← Multiset.map_coe, Multiset.bind_map]
    rfl

/-- Two reports of one monitor about one flow, and a flush: one record is sent. -/
theorem emulatorExport_exactlyOnce_sample :
    ∃ t r s' ds, runOk {} [sampleCall, sampleCall] = some t ∧
      checkExpired { usingEmulator := true, target := some (sendNetflowV5 true {}), ex := .all }
        ⟨t, {}⟩ = .ok (r, s') ∧
      s'.exporter.net.sent = ds.map Nf5Datagram.bytes ∧ (nf5Reports ds).card = 1 := by
  obtain ⟨t, hrun, hcard⟩ : ∃ t, runOk {} [sampleCall, sampleCall] = some t ∧
      ((expiredFlows {} .all (fun _ => true) t.ft).map fun f =>
        (f.slotReports t.ft.systemBootTime 0).card +
          (f.slotReports t.ft.systemBootTime 1).card).sum = 1 := by
    have hcheck : (runOk {} [sampleCall, sampleCall]).any (fun t =>
        ((expiredFlows {} .all (fun _ => true) t.ft).map fun f =>
          (f.slotReports t.ft.systemBootTime 0).card +
            (f.slotReports t.ft.systemBootTime 1).card).sum = 1) = true := by
      decide +kernel
    obtain ⟨t, ht, hp⟩ := (Option.any_eq_true _ _).mp hcheck
    exact ⟨t, ht, by simpa using hp⟩
  have hsend : ∀ k, ({} : Exporter).net.sendFails k = false := fun _ => rfl
  obtain ⟨r, s', ds, hcall, hsent, hrep⟩ := emulatorExport_exactlyOnce (s := {}) ⟨rfl, rfl, rfl⟩
    hrun (c := { usingEmulator := true, target := some (sendNetflowV5 true {}), ex := .all })
    rfl rfl hsend
  refine ⟨t, r, s', ds, hrun, hcall, hsent, ?_⟩
  rw [hrep, Multiset.card_bind, Multiset.map_coe, Multiset.sum_coe]
  simpa only [Function.comp_def, Multiset.card_add] using hcard

end Softflowd
