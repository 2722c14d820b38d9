import NetworkMonitoring.Foundations.Counters
import NetworkMonitoring.Softflowd.EmulatorStep

/-!
# softflowd — what the calls do to the statistics

The statistics read the protocol and the counters of a flow (`Flow.bill`). Filing a packet adds to
one of the live flows or starts one, and leaves the statistics alone; the expiry scan takes flows
out of the table, and `update_statistics` moves what they have counted to the sums per protocol.

## Main results

* `TableInv.processPacket_step`, `TableInv.checkExpired_cases`: what filing a packet and expiring
  flows do to live flows and statistics;
* `exportExpired_keeps`: the export does not touch the statistics.
-/

namespace Softflowd

open Counters ErrorLoops Function OrderedSet

/-! ## Statistics and traffic -/

/-- The reasons of the `expired_*` counters. -/
instance : Fintype Reason where
  elems := {.general, .tcp, .tcpRst, .tcpFin, .udp, .icmp, .maxlife, .overbytes, .overflows, .flush}
  complete := fun r => by cases r <;> decide

/-- The statistics about expired flows. -/
structure Statistics where
  flowsExpired : UInt64
  flowsPp : UInt8 → UInt64
  octetsPp : UInt8 → UInt64
  packetsPp : UInt8 → UInt64
  expired : Reason → UInt64

/-- The statistics of the tracking state. -/
def FlowTrack.statistics (ft : FlowTrack) : Statistics where
  flowsExpired := ft.flowsExpired
  flowsPp := ft.flowsPp
  octetsPp := ft.octetsPp
  packetsPp := ft.packetsPp
  expired := ft.expired

/-- What the statistics read of a flow. -/
def Flow.bill (f : Flow) : UInt8 × (Dir → UInt32) × (Dir → UInt32) :=
  (f.protocol, f.packets, f.octets)

/-- The packets and the octets of a flow. -/
def Flow.traffic (f : Flow) : ℕ × ℕ :=
  ((f.packets 0).toNat + (f.packets 1).toNat, (f.octets 0).toNat + (f.octets 1).toNat)

/-- The traffic of a flow is read off its bill. -/
theorem Flow.traffic_congr {f f' : Flow} (h : f'.bill = f.bill) : f'.traffic = f.traffic := by
  obtain ⟨-, hrest⟩ := Prod.mk.inj h
  obtain ⟨hpackets, hoctets⟩ := Prod.mk.inj hrest
  rw [Flow.traffic, Flow.traffic, hpackets, hoctets]

/-- The packets and the octets of flows. -/
def traffic (fs : List Flow) : ℕ × ℕ := (fs.map Flow.traffic).sum

/-- No flows have no traffic. -/
theorem traffic_nil : traffic [] = 0 := rfl

/-- The traffic of a flow and of the flows behind it. -/
theorem traffic_cons (f : Flow) (fs : List Flow) : traffic (f :: fs) = f.traffic + traffic fs :=
  List.sum_cons

/-- The traffic of two lists of flows. -/
theorem traffic_append (fs gs : List Flow) : traffic (fs ++ gs) = traffic fs + traffic gs := by
  rw [traffic, List.map_append, List.sum_append]
  rfl

/-- The order of the flows does not matter for their traffic. -/
theorem traffic_perm {fs gs : List Flow} (h : fs.Perm gs) : traffic fs = traffic gs :=
  (h.map Flow.traffic).sum_eq

/-- Flows with the same bills have the same traffic. -/
theorem traffic_congr {fs gs : List Flow} (h : (fs.map Flow.bill).Perm (gs.map Flow.bill)) :
    traffic fs = traffic gs := by
  have hcounts : ∀ l : List Flow, traffic l = ((l.map Flow.bill).map fun b =>
      ((b.2.1 0).toNat + (b.2.1 1).toNat, (b.2.2 0).toNat + (b.2.2 1).toNat)).sum := by
    intro l
    rw [List.map_map]
    rfl
  rw [hcounts, hcounts]
  exact (h.map _).sum_eq

/-- The packets and the octets of the expired flows. -/
def Statistics.traffic (st : Statistics) : ℕ × ℕ := (total st.packetsPp, total st.octetsPp)

/-- Nothing has been counted at the start. -/
theorem Statistics.traffic_empty : ({} : FlowTrack).statistics.traffic = 0 :=
  Prod.ext total_zero total_zero

/-- What `update_statistics` does. -/
def Statistics.count (st : Statistics) (f : Flow) : Statistics :=
  { st with
    flowsExpired := st.flowsExpired + 1
    flowsPp := update st.flowsPp f.protocol (st.flowsPp f.protocol + 1)
    octetsPp := update st.octetsPp f.protocol
      (st.octetsPp f.protocol + (f.octets 0 + f.octets 1).toUInt64)
    packetsPp := update st.packetsPp f.protocol
      (st.packetsPp f.protocol + (f.packets 0 + f.packets 1).toUInt64) }

/-- The statistics read the bills of the flows alone. -/
theorem Statistics.foldl_count_congr {fs gs : List Flow}
    (h : fs.map Flow.bill = gs.map Flow.bill) (st : Statistics) :
    fs.foldl Statistics.count st = gs.foldl Statistics.count st := by
  have hbill : ∀ l : List Flow, l.foldl Statistics.count st =
      (l.map Flow.bill).foldl (fun st b => st.count
        { protocol := b.1, packets := b.2.1, octets := b.2.2 }) st := by
    intro l
    rw [List.foldl_map]
    rfl
  rw [hbill, hbill, h]

/-- `update_statistics` counts no reason. -/
theorem Statistics.expired_foldl_count (fs : List Flow) (st : Statistics) :
    (fs.foldl Statistics.count st).expired = st.expired := by
  induction fs generalizing st with
  | nil => rfl
  | cons f fs ih => exact ih _

/-- The counters outside the two trees. -/
def FlowTrack.counters (ft : FlowTrack) : UInt64 × UInt64 × Statistics :=
  (ft.totalPackets, ft.badPackets, ft.statistics)

/-! ## Filing a packet -/

/-- Counting a fragment leaves the other counters alone. -/
@[simp]
theorem FlowTrack.counters_countFragment (ft : FlowTrack) (frag : Bool) :
    (ft.countFragment frag).counters = ft.counters := by
  unfold FlowTrack.countFragment
  split <;> rfl

/-- Counting a fragment leaves the flows alone. -/
@[simp]
theorem FlowTrack.flows_countFragment (ft : FlowTrack) (frag : Bool) :
    (ft.countFragment frag).flows = ft.flows := by
  unfold FlowTrack.countFragment
  split <;> rfl

/-- A flow that is created is not counted here. -/
theorem FlowTrack.counters_createFlow (ft : FlowTrack) (tmp : Flow) (alloc : Alloc) :
    (ft.createFlow tmp alloc).1.counters = ft.counters := by
  unfold FlowTrack.createFlow
  split
  · rfl
  · split <;> rfl

/-- A new expiry changes neither flows nor counters. -/
theorem FlowTrack.counters_flowUpdateExpiry {ft ft' : FlowTrack} {p : ℕ}
    (h : ft.flowUpdateExpiry p = .ok ft') : ft'.counters = ft.counters ∧ ft'.flows = ft.flows := by
  obtain ⟨_, _, -, -, rfl⟩ := FlowTrack.flowUpdateExpiry_eq_ok.mp h
  exact ⟨rfl, rfl⟩

/-- Writing to what the statistics do not read. -/
theorem FlowTrack.bill_modifyFlow (ft : FlowTrack) (p : ℕ) {g : Flow → Flow}
    (hg : ∀ f, (g f).bill = f.bill) :
    (ft.modifyFlow p g).flows.map Flow.bill = ft.flows.map Flow.bill := by
  rw [FlowTrack.modifyFlow, List.map_map]
  refine List.map_congr_left fun f _ => ?_
  by_cases hp : f.ptr = p
  · simp [hp, hg]
  · simp [hp]

/-- The time of the last packet does not matter. -/
theorem FlowTrack.counters_touchFlow {ft ft' : FlowTrack} {p : ℕ} {received : Timeval}
    (h : ft.touchFlow p received = .ok ft') :
    ft'.counters = ft.counters ∧ ft'.flows.map Flow.bill = ft.flows.map Flow.bill := by
  have hbill := ft.bill_modifyFlow p
    (fun f => show ({ f with flowLast := received } : Flow).bill = f.bill from rfl)
  unfold FlowTrack.touchFlow at h
  dsimp only at h
  split at h
  · cases h
  · split at h
    · obtain ⟨hcounters, hflows⟩ := FlowTrack.counters_flowUpdateExpiry h
      exact ⟨hcounters, hflows ▸ hbill⟩
    · obtain rfl := Except.ok.inj h
      exact ⟨rfl, hbill⟩

/-- The counters when a message comes in. -/
theorem FlowTrack.counters_counted (ft : FlowTrack) (frag : ℤ) :
    (ft.counted frag).counters = (ft.totalPackets + 1, ft.badPackets, ft.statistics) :=
  FlowTrack.counters_countFragment ..

/-- A successful message moves `total_packets` alone. -/
theorem EmulatorStep.counters_of_ok {s s' : Tracker} {c : EmulatorCall}
    (h : EmulatorStep s c .ok s') :
    s'.ft.counters = (s.ft.totalPackets + 1, s.ft.badPackets, s.ft.statistics) := by
  cases h with
  | @created tmp frag ndx ft p em a ms _ _ hcreate =>
    have hcounters := (s.ft.counted frag).counters_createFlow
      (((s.ft.counted frag).maskRecord tmp).stamp c.received) c.alloc
    rw [hcreate] at hcounters
    exact hcounters.trans (s.ft.counters_counted frag)
  | @ignored tmp frag => exact s.ft.counters_counted frag
  | @updated tmp frag ndx flow e em a ms flow' last ft _ _ _ _ _ _ _ _ _ _ hupd =>
    exact (FlowTrack.counters_flowUpdateExpiry hupd).1.trans (s.ft.counters_counted frag)

namespace TableInv

variable {n : ℕ} {ft : FlowTrack} {f : Flow}

/-- Writing to a flow of the table changes the traffic of this flow. -/
theorem traffic_modifyFlow (h : TableInv n ft) (hf : f ∈ ft.flows) (g : Flow → Flow) :
    traffic (ft.modifyFlow f.ptr g).flows + f.traffic = traffic ft.flows + (g f).traffic := by
  have hperm := perm_cons_filter_ne h.nodup_ptr hf
  have hothers : (ft.flows.filter fun x => x.ptr != f.ptr).map
      (fun x => if x.ptr = f.ptr then g x else x) = ft.flows.filter fun x => x.ptr != f.ptr := by
    refine (List.map_congr_left fun x hx => ?_).trans (List.map_id _)
    have hne : x.ptr ≠ f.ptr := by simpa using (List.mem_filter.mp hx).2
    exact if_neg hne
  have hmodified := hperm.map fun x => if x.ptr = f.ptr then g x else x
  rw [List.map_cons, hothers, if_pos rfl] at hmodified
  rw [traffic_perm hperm, FlowTrack.modifyFlow, traffic_perm hmodified, traffic_cons, traffic_cons]
  ac_rfl

end TableInv

/-- How the record `tmp` of a packet is filed: it starts a flow, or it is added to one. -/
inductive RecordFiled (n : ℕ) (ft : FlowTrack) (tmp : Flow) (ft' : FlowTrack) : Prop where
  | started : ft.flowFind tmp = none → TableInv (n + 1) ft' →
      (ft'.flows.map Flow.bill).Perm (tmp.bill :: ft.flows.map Flow.bill) → RecordFiled n ft tmp ft'
  | added (flow : Flow) : ft.flowFind tmp = some flow → TableInv n ft' →
      ft'.nextFlowSeq = ft.nextFlowSeq → ft'.flows.map Flow.bill =
        (ft.modifyFlow flow.ptr (FlowTrack.addRecord tmp)).flows.map Flow.bill →
      RecordFiled n ft tmp ft'

/-- The table is all that filing looks at. -/
theorem RecordFiled.of_table {n : ℕ} {ft ft₁ ft' : FlowTrack} {tmp : Flow}
    (h : RecordFiled n ft₁ tmp ft') (hflows : ft₁.flows = ft.flows)
    (hseq : ft₁.nextFlowSeq = ft.nextFlowSeq) : RecordFiled n ft tmp ft' := by
  have hfind : ft₁.flowFind tmp = ft.flowFind tmp := by
    rw [FlowTrack.flowFind, FlowTrack.flowFind, hflows]
  cases h with
  | started hnone hinv hperm => exact .started (hfind ▸ hnone) hinv (hflows ▸ hperm)
  | added flow hsome hinv hseq' hmap =>
    refine .added flow (hfind ▸ hsome) hinv (hseq'.trans hseq) ?_
    rw [hmap, FlowTrack.modifyFlow, FlowTrack.modifyFlow, hflows]

/-- The ways a record is filed. -/
theorem TableInv.fileRecord_cases {n : ℕ} {ft ft' : FlowTrack} (h : TableInv n ft)
    (hn : n < 2 ^ 64) {tmp : Flow} {received : Timeval} {r : PpResult}
    (hcall : ft.fileRecord tmp {} received = .ok (r, ft')) :
    r = .ok ∧ ft'.counters = ft.counters ∧ RecordFiled n ft tmp ft' := by
  cases hfind : ft.flowFind tmp with
  | none =>
    obtain ⟨ft₂, hfile, h₂, -, -⟩ := h.fileRecord_new hn hfind received
    rw [hcall] at hfile
    obtain ⟨rfl, rfl⟩ := Prod.mk.inj (Except.ok.inj hfile)
    -- the flow is created, and then stamped with the time of the packet
    obtain ⟨ft₁, hcreate, -, hperm, -⟩ :=
      h.createFlow hn { tmp with flowStart := received } (find_eq_none hfind)
    unfold FlowTrack.fileRecord at hcall
    simp only [hfind, hcreate] at hcall
    obtain ⟨ft₃, htouch, heq⟩ := bind_eq_ok.mp hcall
    obtain rfl := (Prod.mk.inj (Except.ok.inj heq)).2
    obtain ⟨hcounters, hbill⟩ := FlowTrack.counters_touchFlow htouch
    have hcounters₁ := ft.counters_createFlow { tmp with flowStart := received } {}
    rw [hcreate] at hcounters₁
    refine ⟨rfl, hcounters.trans hcounters₁, .started hfind h₂ ?_⟩
    rw [hbill]
    exact hperm.map Flow.bill
  | some flow =>
    obtain ⟨hflow, -⟩ := find_eq_some hfind
    have h₁ : TableInv n (ft.modifyFlow flow.ptr (FlowTrack.addRecord tmp)) :=
      h.modifyFlow fun _ _ _ => rfl
    unfold FlowTrack.fileRecord at hcall
    simp only [hfind] at hcall
    obtain ⟨ft₃, htouch, heq⟩ := bind_eq_ok.mp hcall
    obtain ⟨rfl, rfl⟩ := Prod.mk.inj (Except.ok.inj heq)
    obtain ⟨ft₂, htouch', h₂, hseq, -, -⟩ := h₁.touchFlow (mem_modifyFlow hflow _) received
    obtain rfl := Except.ok.inj (htouch.symm.trans htouch')
    obtain ⟨hcounters, hbill⟩ := FlowTrack.counters_touchFlow htouch
    exact ⟨rfl, hcounters, .added flow hfind h₂ hseq hbill⟩

/-- The ways `process_packet` can return. -/
inductive PacketStep (n : ℕ) (ft : FlowTrack) (record : Option (Flow × Bool)) :
    PpResult → FlowTrack → Prop where
  | bad : record = none → PacketStep n ft record .badPacket
      { ft with totalPackets := ft.totalPackets + 1, badPackets := ft.badPackets + 1 }
  | filed {tmp : Flow} {frag : Bool} {ft' : FlowTrack} : record = some (tmp, frag) →
      ft'.counters = (ft.totalPackets + 1, ft.badPackets, ft.statistics) →
      RecordFiled n ft (ft.maskRecord tmp) ft' → PacketStep n ft record .ok ft'

/-- What `process_packet` does to a consistent table. -/
theorem TableInv.processPacket_step {n : ℕ} {ft ft' : FlowTrack} (h : TableInv n ft)
    (hn : n < 2 ^ 64) {m : Bytes.Mem} {af : ℤ} {caplen len : UInt32} {received : Timeval}
    {r : PpResult} (hcall : ft.processPacket {} m af caplen len received = .ok (r, ft')) :
    PacketStep n ft (FlowTrack.packetRecord m af caplen len) r ft' := by
  unfold FlowTrack.processPacket at hcall
  cases hrecord : FlowTrack.packetRecord m af caplen len with
  | none =>
    simp only [hrecord] at hcall
    obtain ⟨rfl, rfl⟩ := Prod.mk.inj (Except.ok.inj hcall)
    exact .bad rfl
  | some record =>
    obtain ⟨tmp, frag⟩ := record
    simp only [hrecord] at hcall
    set ft₁ : FlowTrack := { ft with totalPackets := ft.totalPackets + 1 }
    have hinv : TableInv n ft₁ := h.of_table rfl
    obtain ⟨rfl, hcounters, hfiled⟩ := (hinv.countFragment frag).fileRecord_cases hn hcall
    -- the fragment counter does not change what the record is masked with
    have hmask : (ft₁.countFragment frag).maskRecord tmp = ft.maskRecord tmp := by
      unfold FlowTrack.countFragment
      split <;> rfl
    rw [hmask] at hfiled
    refine .filed rfl ?_ (hfiled.of_table ?_ ?_)
    · rw [hcounters, FlowTrack.counters_countFragment]
      rfl
    · exact ft₁.flows_countFragment frag
    · exact ft₁.nextFlowSeq_countFragment frag

/-! ## The expiry scan and the export -/

/-- Selecting a flow for a monitor does not change its bill. -/
theorem bill_marked {d : Dir} {a : InetText.InAddr} {f : Flow} {r : Flow × Bool}
    (h : markFlow d a f = .ok r) : r.1.bill = f.bill := by
  obtain ⟨k, -, h⟩ := bind_eq_ok.mp h
  cases k with
  | none =>
    obtain rfl := Except.ok.inj h
    rfl
  | some k =>
    obtain rfl := Except.ok.inj h
    rfl

/-- Selecting flows for a monitor does not change their bills. -/
theorem bill_mapM_markFlow {d : Dir} {a : InetText.InAddr} {fs : List Flow}
    {rs : List (Flow × Bool)} (h : fs.mapM (markFlow d a) = .ok rs) :
    (rs.map Prod.fst).map Flow.bill = fs.map Flow.bill := by
  induction fs generalizing rs with
  | nil =>
    obtain rfl := Except.ok.inj h
    rfl
  | cons f fs ih =>
    rw [List.mapM_cons] at h
    obtain ⟨r, hr, h⟩ := bind_eq_ok.mp h
    obtain ⟨rs', hrs, h⟩ := bind_eq_ok.mp h
    obtain rfl := Except.ok.inj h
    rw [List.map_cons, List.map_cons, List.map_cons, bill_marked hr, ih hrs]

/-- What the export keeps. -/
structure ExportState.Keeps (st st' : ExportState) : Prop where
  counters : st'.ft.counters = st.ft.counters
  bill : st'.expired.map Flow.bill = st.expired.map Flow.bill

/-- What two exports keep one after the other. -/
theorem ExportState.Keeps.trans {st st₁ st₂ : ExportState} (h : st.Keeps st₁) (h' : st₁.Keeps st₂) :
    st.Keeps st₂ :=
  ⟨h'.counters.trans h.counters, h'.bill.trans h.bill⟩

/-- The call for one direction keeps the statistics. -/
theorem exportDirection_keeps {func : NetflowSendFunc} {a : InetText.InAddr} {d : Dir}
    {st st' : ExportState} (h : exportDirection func a st d = .ok st') : st.Keeps st' := by
  obtain ⟨marked, hmarked, h⟩ := bind_eq_ok.mp h
  obtain ⟨⟨r, exported, ex⟩, -, h⟩ := bind_eq_ok.mp h
  obtain rfl := Except.ok.inj h
  exact ⟨rfl, bill_mapM_markFlow hmarked⟩

/-- The two calls for a monitor keep the statistics. -/
theorem exportMonitor_keeps {func : NetflowSendFunc} {ms : Monitors} {m : ℕ}
    {st st' : ExportState} (h : exportMonitor func ms st m = .ok st') : st.Keeps st' := by
  unfold exportMonitor at h
  split at h
  · obtain ⟨st₁, h₀, h₁⟩ := bind_eq_ok.mp h
    exact (exportDirection_keeps h₀).trans (exportDirection_keeps h₁)
  · cases h

/-- The call outside emulator mode keeps the statistics. -/
theorem exportAll_keeps {func : NetflowSendFunc} {st st' : ExportState}
    (h : exportAll func st = .ok st') : st.Keeps st' := by
  obtain ⟨⟨r, exported, ex⟩, -, h⟩ := bind_eq_ok.mp h
  obtain rfl := Except.ok.inj h
  refine ⟨?_, rfl⟩
  dsimp only
  split <;> rfl

/-- Sending the expired flows changes neither the statistics nor what they read of the flows. -/
theorem exportExpired_keeps {c : ExpiryCall} {ms : Monitors} {st st' : ExportState}
    (h : exportExpired c ms st = .ok st') : st.Keeps st' := by
  unfold exportExpired at h
  cases hc : c.target with
  | none =>
    rw [hc] at h
    obtain rfl := Except.ok.inj h
    exact ⟨rfl, rfl⟩
  | some func =>
    rw [hc] at h
    dsimp only at h
    split at h
    · refine foldlM_ok_rel (R := ExportState.Keeps) ?_ ?_ ?_ h
      · exact fun _ => ⟨rfl, rfl⟩
      · exact fun _ _ _ h₁ h₂ => h₁.trans h₂
      · exact fun _ _ _ => exportMonitor_keeps
    · exact exportAll_keeps h

/-- The counters after `check_expired`, from those after its scan. -/
theorem counters_checkExpired {c : ExpiryCall} {s s' : Daemon} {r : ℤ}
    (h : checkExpired c s = .ok (r, s')) :
    ∃ ft expired, scanExpired c.now c.ex c.reallocOk s.tracker.ft = .ok (ft, expired) ∧
      s'.tracker.ft.table = ft.table ∧ s'.tracker.ft.counters =
        (ft.totalPackets, ft.badPackets, expired.foldl Statistics.count ft.statistics) := by
  obtain ⟨ft₀, expired₀, hscan₀, htable⟩ := checkExpired_table h
  obtain ⟨⟨ft, expired⟩, hscan, h⟩ := bind_eq_ok.mp h
  obtain ⟨rfl, rfl⟩ := Prod.mk.inj (Except.ok.inj (hscan.symm.trans hscan₀))
  refine ⟨ft, expired, hscan, htable, ?_⟩
  dsimp only at h
  split at h
  · rename_i hempty
    obtain ⟨-, rfl⟩ := Prod.mk.inj (Except.ok.inj h)
    rw [List.isEmpty_iff.mp hempty]
    rfl
  · obtain ⟨st, hexport, h⟩ := bind_eq_ok.mp h
    obtain ⟨-, rfl⟩ := Prod.mk.inj (Except.ok.inj h)
    obtain ⟨hcounters, hbill⟩ := exportExpired_keeps hexport
    obtain ⟨htotal, hrest⟩ := Prod.mk.inj hcounters
    obtain ⟨hbad, hstatistics⟩ := Prod.mk.inj hrest
    -- `update_statistics` counts each exported flow once
    have hkeeps : ∀ (fs : List Flow) (ft : FlowTrack), (fs.foldl updateStatistics ft).counters =
        (ft.totalPackets, ft.badPackets, fs.foldl Statistics.count ft.statistics) := by
      intro fs
      induction fs with
      | nil => exact fun _ => rfl
      | cons f fs ih => exact fun _ => ih _
    apply (hkeeps _ _).trans
    rw [htotal, hbad, hstatistics, Statistics.foldl_count_congr hbill]

/-- Flows that expire keep their bills. -/
theorem bill_map_retire (fs : List Flow) : (fs.map Flow.retire).map Flow.bill = fs.map Flow.bill := by
  rw [List.map_map]
  rfl

namespace TableInv

variable {n : ℕ} {ft ft' : FlowTrack}

/-- The scan counts each flow that it takes out under one reason. -/
theorem scanExpired_counters (h : TableInv n ft) (now : Timeval) (ex : ExpireMode) :
    ∃ ft' gone, Softflowd.scanExpired now ex (fun _ => true) ft = .ok (ft', gone.map Flow.retire) ∧
      TableInv n ft' ∧ ft'.nextFlowSeq = ft.nextFlowSeq ∧ ft.flows.Perm (gone ++ ft'.flows) ∧
      ft'.counters = (ft.totalPackets, ft.badPackets, { ft.statistics with expired := ft'.expired }) ∧
      (total ft.expired + ft.flows.length < 2 ^ 64 →
        total ft'.expired = total ft.expired + gone.length) := by
  -- what the loop keeps: each flow is live or counted under a reason
  set P : FlowTrack → Prop := fun x => TableInv n x ∧
    x.counters = (ft.totalPackets, ft.badPackets, { ft.statistics with expired := x.expired }) ∧
    (total ft.expired + ft.flows.length < 2 ^ 64 →
      total x.expired + x.flows.length = total ft.expired + ft.flows.length)
  have hexpire : ∀ x e, P x → e ∈ x.expiries → ∃ f ∈ x.flows, x.flowAt e.flow = some f ∧
      P (x.expireFlow f e ex) ∧ x.flows.Perm (f :: (x.expireFlow f e ex).flows) := by
    rintro x e ⟨hx, hcounters, htotal⟩ he
    obtain ⟨f, hf, hat, hinv, hperm⟩ := hx.expireFlow he ex
    refine ⟨f, hf, hat, ⟨hinv, ?_, fun hlt => ?_⟩, hperm⟩
    · obtain ⟨htot, hrest⟩ := Prod.mk.inj hcounters
      obtain ⟨hbad, hstatistics⟩ := Prod.mk.inj hrest
      show (x.totalPackets, x.badPackets,
        { x.statistics with expired := (x.expireFlow f e ex).expired }) = _
      rw [htot, hbad, hstatistics]
    · have hlength := hperm.length_eq
      rw [List.length_cons] at hlength
      have hbound := htotal hlt
      have hle := toNat_le_total x.expired (expiredReason x f e ex)
      have hcount : total (x.expireFlow f e ex).expired = total x.expired + 1 :=
        total_update x.expired (by rw [UInt64.toNat_one]; omega)
      omega
  obtain ⟨ft', gone, kept, hscan, ⟨h', hcounters, htotal⟩, hseq, hperm, -, hkept, -⟩ :=
    scanExpired_spec now ex (fun _ => true) (fun _ h => h.1.nodup_expiry) hexpire
      (show P ft from ⟨h, rfl, fun _ => rfl⟩)
  obtain rfl := hkept fun _ => rfl
  refine ⟨ft', kept, hscan, h', hseq, hperm, hcounters, fun hlt => ?_⟩
  have hlength := hperm.length_eq
  rw [List.length_append] at hlength
  have := htotal hlt
  omega

/-- What `check_expired` does to live flows and statistics: `gone` are the flows it takes out. -/
theorem checkExpired_cases {c : ExpiryCall} {s s' : Daemon} {r : ℤ} (h : TableInv n s.tracker.ft)
    (halloc : c.reallocOk = fun _ => true) (hcall : Softflowd.checkExpired c s = .ok (r, s')) :
    ∃ ft gone, Softflowd.scanExpired c.now c.ex c.reallocOk s.tracker.ft =
        .ok (ft, gone.map Flow.retire) ∧
      TableInv n s'.tracker.ft ∧ s'.tracker.ft.nextFlowSeq = s.tracker.ft.nextFlowSeq ∧
      s.tracker.ft.flows.Perm (gone ++ s'.tracker.ft.flows) ∧
      ft.statistics = { s.tracker.ft.statistics with expired := s'.tracker.ft.expired } ∧
      s'.tracker.ft.counters = (s.tracker.ft.totalPackets, s.tracker.ft.badPackets,
        gone.foldl Statistics.count ft.statistics) ∧
      (total s.tracker.ft.expired + s.tracker.ft.flows.length < 2 ^ 64 →
        total s'.tracker.ft.expired = total s.tracker.ft.expired + gone.length) := by
  obtain ⟨hinv, hseq⟩ := h.checkExpired halloc hcall
  obtain ⟨ft, expired, hscan, htable, hcounters⟩ := counters_checkExpired hcall
  obtain ⟨ft₁, gone, hscan₁, -, -, hperm, hcounters₁, htotal⟩ := h.scanExpired_counters c.now c.ex
  rw [← halloc, hscan] at hscan₁
  obtain ⟨rfl, rfl⟩ := Prod.mk.inj (Except.ok.inj hscan₁)
  obtain ⟨htot, hrest⟩ := Prod.mk.inj hcounters₁
  obtain ⟨hbad, hstatistics⟩ := Prod.mk.inj hrest
  rw [Statistics.foldl_count_congr (bill_map_retire gone)] at hcounters
  -- the sums per protocol do not touch the reasons
  have hexpired : s'.tracker.ft.expired = ft.expired := by
    have heq := congrArg (fun x => x.2.2.expired) hcounters
    rwa [Statistics.expired_foldl_count] at heq
  have hflows : s'.tracker.ft.flows = ft.flows := congrArg Prod.fst htable
  rw [htot, hbad] at hcounters
  rw [← hflows] at hperm
  rw [← hexpired] at htotal hstatistics
  exact ⟨ft, gone, hscan, hinv, hseq, hperm, hstatistics, hcounters, htotal⟩

/-! ## Forced expiry and deletion -/

/-- Forced expiry changes neither flows nor counters. -/
theorem forceExpire_cases (h : TableInv n ft) (num : UInt32) :
    TableInv n (ft.forceExpire true num) ∧
      (ft.forceExpire true num).nextFlowSeq = ft.nextFlowSeq ∧
      (ft.forceExpire true num).flows = ft.flows ∧
      (ft.forceExpire true num).counters = ft.counters := by
  have hfold : ∀ (es : List Expiry) (ft : FlowTrack),
      (es.foldl (fun ft e => ft.rekey e 0 .overflows) ft).flows = ft.flows ∧
        (es.foldl (fun ft e => ft.rekey e 0 .overflows) ft).counters = ft.counters := by
    intro es
    induction es with
    | nil => exact fun _ => ⟨rfl, rfl⟩
    | cons e es ih => exact fun ft => ih (ft.rekey e 0 .overflows)
  obtain ⟨hinv, hseq⟩ := h.forceExpire num
  exact ⟨hinv, hseq, hfold (ft.expiries.take num.toNat) ft⟩

/-- The loop of `delete_all_flows`. -/
theorem foldlM_deleteFlow_flows {fs : List Flow} {ft ft' : FlowTrack}
    (h : fs.foldlM FlowTrack.deleteFlow ft = .ok ft') :
    ft'.flows = ft.flows.filter (fun g => g.ptr ∉ fs.map Flow.ptr) ∧
      ft'.counters = ft.counters := by
  induction fs generalizing ft with
  | nil =>
    obtain rfl := Except.ok.inj h
    exact ⟨by simp, rfl⟩
  | cons f fs ih =>
    obtain ⟨ft₁, hdelete, h⟩ := foldlM_cons_ok.mp h
    obtain ⟨hflows, hcounters⟩ := ih h
    unfold FlowTrack.deleteFlow at hdelete
    split at hdelete
    · cases hdelete
    · obtain rfl := Except.ok.inj hdelete
      refine ⟨?_, hcounters⟩
      rw [hflows]
      show (ft.flows.filter fun g => g.ptr != f.ptr).filter _ = _
      rw [List.filter_filter]
      refine List.filter_congr fun g _ => ?_
      by_cases hp : g.ptr = f.ptr
      · simp [hp]
      · simp [hp]

/-- `delete_all_flows` empties the table and does not touch the counters. -/
theorem deleteAllFlows_cases (h : TableInv n ft) {r : ℤ}
    (hcall : ft.deleteAllFlows = .ok (r, ft')) :
    TableInv n ft' ∧ ft'.nextFlowSeq = ft.nextFlowSeq ∧ ft'.flows = [] ∧
      ft'.counters = ft.counters ∧ r = ft.flows.length := by
  obtain ⟨r₁, ft₁, hcall₁, hinv, hseq⟩ := h.deleteAllFlows
  obtain ⟨rfl, rfl⟩ := Prod.mk.inj (Except.ok.inj (hcall.symm.trans hcall₁))
  obtain ⟨ft₂, hfold, heq⟩ := bind_eq_ok.mp hcall
  obtain ⟨rfl, rfl⟩ := Prod.mk.inj (Except.ok.inj heq)
  obtain ⟨hflows, hcounters⟩ := foldlM_deleteFlow_flows hfold
  refine ⟨hinv, hseq, ?_, hcounters, rfl⟩
  rw [hflows, List.filter_eq_nil_iff]
  intro g hg
  simpa using List.mem_map_of_mem hg

end TableInv

end Softflowd
