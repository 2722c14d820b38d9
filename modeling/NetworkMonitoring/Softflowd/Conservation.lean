import NetworkMonitoring.Softflowd.ExpiryLoop
import NetworkMonitoring.Softflowd.Statistics

/-!
# softflowd — conservation of packets and octets

A run on the capture path takes packets, expires flows and deletes them. As long as no counter
wraps, every packet is bad, or it is counted once: by a live flow, by the sums per protocol or by a
flow that `delete_all_flows` has removed.

## Main results

* `CaptureRun.conserved`: packets and octets in every state of such a run.
-/

namespace Softflowd

open Bytes Counters Function OrderedSet

/-! ## Exact counters -/

/-- The counters of a flow do not wrap when the record `tmp` is added. -/
def Flow.AddsExactly (tmp f : Flow) : Prop :=
  ∀ d, (f.packets d).toNat + (tmp.packets d).toNat < 2 ^ 32 ∧
    (f.octets d).toNat + (tmp.octets d).toNat < 2 ^ 32

/-- The traffic of a flow grows by that of the record. -/
theorem Flow.AddsExactly.traffic {tmp f : Flow} (h : tmp.AddsExactly f) :
    (FlowTrack.addRecord tmp f).traffic = f.traffic + tmp.traffic := by
  have hpackets : ∀ d, (f.packets d + tmp.packets d).toNat =
      (f.packets d).toNat + (tmp.packets d).toNat := fun d => by
    rw [UInt32.toNat_add, Nat.mod_eq_of_lt (h d).1]
  have hoctets : ∀ d, (f.octets d + tmp.octets d).toNat =
      (f.octets d).toNat + (tmp.octets d).toNat := fun d => by
    rw [UInt32.toNat_add, Nat.mod_eq_of_lt (h d).2]
  show ((f.packets 0 + tmp.packets 0).toNat + (f.packets 1 + tmp.packets 1).toNat,
    (f.octets 0 + tmp.octets 0).toNat + (f.octets 1 + tmp.octets 1).toNat) = _
  rw [hpackets, hpackets, hoctets, hoctets]
  refine Prod.ext ?_ ?_
  · exact Nat.add_add_add_comm ..
  · exact Nat.add_add_add_comm ..

/-- `update_statistics` wraps no counter. -/
structure Statistics.CountsExactly (st : Statistics) (f : Flow) : Prop where
  packets : (f.packets 0).toNat + (f.packets 1).toNat < 2 ^ 32
  octets : (f.octets 0).toNat + (f.octets 1).toNat < 2 ^ 32
  packetsPp : (st.packetsPp f.protocol).toNat + f.traffic.1 < 2 ^ 64
  octetsPp : (st.octetsPp f.protocol).toNat + f.traffic.2 < 2 ^ 64

/-- The sums per protocol grow by the traffic of the flow. -/
theorem Statistics.CountsExactly.traffic {st : Statistics} {f : Flow} (h : st.CountsExactly f) :
    (st.count f).traffic = st.traffic + f.traffic := by
  have hpackets : (f.packets 0 + f.packets 1).toUInt64.toNat = f.traffic.1 := by
    rw [UInt32.toNat_toUInt64, UInt32.toNat_add, Nat.mod_eq_of_lt h.packets]
    rfl
  have hoctets : (f.octets 0 + f.octets 1).toUInt64.toNat = f.traffic.2 := by
    rw [UInt32.toNat_toUInt64, UInt32.toNat_add, Nat.mod_eq_of_lt h.octets]
    rfl
  refine Prod.ext ?_ ?_
  · exact (total_update st.packetsPp (by rw [hpackets]; exact h.packetsPp)).trans
      (by rw [hpackets]; rfl)
  · exact (total_update st.octetsPp (by rw [hoctets]; exact h.octetsPp)).trans
      (by rw [hoctets]; rfl)

/-- The loop of `check_expired` over the expired flows wraps no counter. -/
def Statistics.CountAllExactly : Statistics → List Flow → Prop
  | _, [] => True
  | st, f :: fs => st.CountsExactly f ∧ (st.count f).CountAllExactly fs

/-- The sums per protocol grow by the traffic of all expired flows. -/
theorem Statistics.CountAllExactly.traffic {st : Statistics} {fs : List Flow}
    (h : st.CountAllExactly fs) :
    (fs.foldl Statistics.count st).traffic = st.traffic + Softflowd.traffic fs := by
  induction fs generalizing st with
  | nil => exact (add_zero _).symm
  | cons f fs ih => rw [List.foldl_cons, ih h.2, h.1.traffic, traffic_cons, add_assoc]

/-- As long as all packets and octets together fit into 32 bits no counter wraps. -/
theorem Statistics.CountAllExactly.of_lt {st : Statistics} {fs : List Flow}
    (hpackets : total st.packetsPp + (Softflowd.traffic fs).1 < 2 ^ 32)
    (hoctets : total st.octetsPp + (Softflowd.traffic fs).2 < 2 ^ 32) :
    st.CountAllExactly fs := by
  induction fs generalizing st with
  | nil => trivial
  | cons f fs ih =>
    rw [traffic_cons, Prod.fst_add] at hpackets
    rw [traffic_cons, Prod.snd_add] at hoctets
    have hpp := toNat_le_total st.packetsPp f.protocol
    have hop := toNat_le_total st.octetsPp f.protocol
    have hhead : st.CountsExactly f := by
      refine ⟨?_, ?_, by omega, by omega⟩
      · change f.traffic.1 < _
        omega
      · change f.traffic.2 < _
        omega
    -- what the flow adds to the sums is what it takes from the traffic that is left
    have hcount := hhead.traffic
    have hpackets' : total (st.count f).packetsPp = total st.packetsPp + f.traffic.1 :=
      congrArg Prod.fst hcount
    have hoctets' : total (st.count f).octetsPp = total st.octetsPp + f.traffic.2 :=
      congrArg Prod.snd hcount
    exact ⟨hhead, ih (by omega) (by omega)⟩

/-- Whether a counter wraps depends on protocols and counters alone. -/
theorem Statistics.CountAllExactly.congr {st : Statistics} {fs gs : List Flow}
    (hbill : gs.map Flow.bill = fs.map Flow.bill) (h : st.CountAllExactly fs) :
    st.CountAllExactly gs := by
  induction gs generalizing st fs with
  | nil => trivial
  | cons g gs ih =>
    cases fs with
    | nil => contradiction
    | cons f fs =>
      obtain ⟨hhead, htail⟩ := List.cons.inj hbill
      have htraffic := Flow.traffic_congr hhead
      obtain ⟨hprotocol, hrest⟩ := Prod.mk.inj hhead
      obtain ⟨hpackets, hoctets⟩ := Prod.mk.inj hrest
      obtain ⟨hexact, hall⟩ := h
      have hcount : st.count g = st.count f := by
        simp only [Statistics.count, hprotocol, hpackets, hoctets]
      -- the four counters of the first flow, and then the flows behind it
      refine ⟨⟨?_, ?_, ?_, ?_⟩, ?_⟩
      · rw [hpackets]
        exact hexact.packets
      · rw [hoctets]
        exact hexact.octets
      · rw [htraffic, hprotocol]
        exact hexact.packetsPp
      · rw [htraffic, hprotocol]
        exact hexact.octetsPp
      · rw [hcount]
        exact ih htail hall

/-! ## The record of a packet -/

/-- A record of one packet. -/
def Flow.IsPacket (len : UInt32) (tmp : Flow) : Prop :=
  ∃ ndx, tmp.packets = update (fun _ => 0) ndx 1 ∧ tmp.octets = update (fun _ => 0) ndx len

/-- The traffic of one packet. -/
theorem Flow.IsPacket.traffic {len : UInt32} {tmp : Flow} (h : tmp.IsPacket len) :
    tmp.traffic = (1, len.toNat) := by
  obtain ⟨ndx, hpackets, hoctets⟩ := h
  rw [Flow.traffic, hpackets, hoctets]
  fin_cases ndx
  · simp [update]
  · simp [update]

/-- The transport header does not touch the counters. -/
theorem transportToFlowrec_counts (flow : Flow) (m : Mem) (pkt caplen : ℕ) (isfrag : Bool)
    (protocol : UInt8) (ndx : Dir) :
    (transportToFlowrec flow m pkt caplen isfrag protocol ndx).2.packets = flow.packets ∧
      (transportToFlowrec flow m pkt caplen isfrag protocol ndx).2.octets = flow.octets := by
  unfold transportToFlowrec
  split
  · split <;> exact ⟨rfl, rfl⟩
  · split
    · split <;> exact ⟨rfl, rfl⟩
    · split <;> exact ⟨rfl, rfl⟩

/-- A packet of IPv4 makes a record of one packet. -/
theorem ipv4ToFlowrec_isPacket {m : Mem} {caplen : ℕ} {len : UInt32} {af r : ℤ} {tmp : Flow}
    {frag : Bool} (h : ipv4ToFlowrec {} m caplen len af = some (r, tmp, frag)) :
    tmp.IsPacket len := by
  unfold ipv4ToFlowrec at h
  split at h
  · cases h
  · split at h
    · cases h
    · dsimp only at h
      split at h
      · obtain ⟨-, rfl, -⟩ : _ ∧ _ ∧ _ := by simpa using h
        exact ⟨_, rfl, rfl⟩
      · obtain ⟨-, rfl, -⟩ : _ ∧ _ ∧ _ := by simpa using h
        rw [Flow.IsPacket, (transportToFlowrec_counts ..).1, (transportToFlowrec_counts ..).2]
        exact ⟨_, rfl, rfl⟩

/-- So does one of IPv6. -/
theorem ipv6ToFlowrec_isPacket {m : Mem} {caplen : ℕ} {len : UInt32} {af r : ℤ} {tmp : Flow}
    {frag : Bool} (h : ipv6ToFlowrec {} m caplen len af = some (r, tmp, frag)) :
    tmp.IsPacket len := by
  unfold ipv6ToFlowrec at h
  split at h
  · cases h
  · split at h
    · cases h
    · dsimp only at h
      split at h
      · obtain ⟨-, rfl, -⟩ : _ ∧ _ ∧ _ := by simpa using h
        exact ⟨_, rfl, rfl⟩
      · obtain ⟨-, rfl, -⟩ : _ ∧ _ ∧ _ := by simpa using h
        rw [Flow.IsPacket, (transportToFlowrec_counts ..).1, (transportToFlowrec_counts ..).2]
        exact ⟨_, rfl, rfl⟩

/-- Every record is one of one packet. -/
theorem packetRecord_isPacket {m : Mem} {af : ℤ} {caplen len : UInt32} {tmp : Flow} {frag : Bool}
    (h : FlowTrack.packetRecord m af caplen len = some (tmp, frag)) : tmp.IsPacket len := by
  unfold FlowTrack.packetRecord at h
  split at h
  · obtain ⟨⟨r, tmp', frag'⟩, hrec, heq⟩ := Option.map_eq_some_iff.mp h
    obtain ⟨rfl, -⟩ := Prod.mk.inj heq
    exact ipv4ToFlowrec_isPacket hrec
  · split at h
    · obtain ⟨⟨r, tmp', frag'⟩, hrec, heq⟩ := Option.map_eq_some_iff.mp h
      obtain ⟨rfl, -⟩ := Prod.mk.inj heq
      exact ipv6ToFlowrec_isPacket hrec
    · cases h

/-- The track level does not touch the counters. -/
theorem Flow.IsPacket.mask {len : UInt32} {tmp : Flow} (h : tmp.IsPacket len) (ft : FlowTrack) :
    (ft.maskRecord tmp).IsPacket len := by
  unfold FlowTrack.maskRecord
  split <;> exact h

/-! ## Runs -/

/-- What a run has taken and what it has deleted. -/
structure CaptureLog where
  /-- The packets that were not bad. -/
  packets : ℕ := 0
  /-- The sum of their `len` arguments. -/
  octets : ℕ := 0
  /-- The flows that `delete_all_flows` has removed. -/
  deleted : List Flow := []

/-- One more packet. -/
def CaptureLog.take (l : CaptureLog) (r : PpResult) (len : UInt32) : CaptureLog :=
  match r with
  | .ok => { l with packets := l.packets + 1, octets := l.octets + len.toNat }
  | _ => l

/-- `process_packet` wraps no counter. -/
structure FlowTrack.TakesExactly (ft : FlowTrack) (m : Mem) (af : ℤ) (caplen len : UInt32) :
    Prop where
  totalPackets : ft.totalPackets.toNat + 1 < 2 ^ 64
  flow : ∀ tmp frag f, packetRecord m af caplen len = some (tmp, frag) →
    ft.flowFind (ft.maskRecord tmp) = some f → (ft.maskRecord tmp).AddsExactly f

/-- The runs on the capture path in which no allocation fails and no counter wraps. -/
inductive CaptureRun : CaptureLog → Daemon → Prop where
  | init {s : Daemon} : s.Initial → s.tracker.ft.counters = ({} : FlowTrack).counters →
      CaptureRun {} s
  | processPacket {l : CaptureLog} {s : Daemon} {r : PpResult} {ft : FlowTrack} (m : Mem) (af : ℤ)
      (caplen len : UInt32) (received : Timeval) : CaptureRun l s →
      s.tracker.ft.processPacket {} m af caplen len received = .ok (r, ft) →
      s.tracker.ft.TakesExactly m af caplen len →
      CaptureRun (l.take r len) { s with tracker := { s.tracker with ft := ft } }
  | forceExpire {l : CaptureLog} {s : Daemon} (num : UInt32) : CaptureRun l s →
      CaptureRun l { s with tracker := { s.tracker with ft := s.tracker.ft.forceExpire true num } }
  | checkExpired {l : CaptureLog} {s s' : Daemon} {r : ℤ} (c : ExpiryCall) : CaptureRun l s →
      c.reallocOk = (fun _ => true) → checkExpired c s = .ok (r, s') →
      (∀ ft expired, scanExpired c.now c.ex c.reallocOk s.tracker.ft = .ok (ft, expired) →
        ft.statistics.CountAllExactly expired) →
      CaptureRun l s'
  | deleteAllFlows {l : CaptureLog} {s : Daemon} {r : ℤ} {ft : FlowTrack} : CaptureRun l s →
      s.tracker.ft.deleteAllFlows = .ok (r, ft) →
      CaptureRun { l with deleted := l.deleted ++ s.tracker.ft.flows }
        { s with tracker := { s.tracker with ft := ft } }

/-- What holds in every state of such a run. -/
structure CaptureInv (l : CaptureLog) (ft : FlowTrack) : Prop where
  table : ∃ n ≤ ft.totalPackets.toNat, TableInv n ft
  packets : ft.totalPackets.toNat = ft.badPackets.toNat + l.packets
  balance : (l.packets, l.octets) =
    traffic ft.flows + ft.statistics.traffic + traffic l.deleted

/-- A record that is added exactly moves the live traffic by its own. -/
theorem RecordFiled.traffic {n : ℕ} {ft ft' : FlowTrack} {tmp : Flow} (h : RecordFiled n ft tmp ft')
    (hinv : TableInv n ft) (hexact : ∀ f, ft.flowFind tmp = some f → tmp.AddsExactly f) :
    Softflowd.traffic ft'.flows = Softflowd.traffic ft.flows + tmp.traffic := by
  cases h with
  | started hnone hinv' hperm => rw [@traffic_congr _ (tmp :: ft.flows) hperm, traffic_cons, add_comm]
  | added flow hsome hinv' hseq hmap =>
    obtain ⟨hflow, -⟩ := find_eq_some hsome
    have hmodify := hinv.traffic_modifyFlow hflow (FlowTrack.addRecord tmp)
    rw [(hexact flow hsome).traffic, ← traffic_congr (List.Perm.of_eq hmap)] at hmodify
    refine add_right_cancel (b := flow.traffic) (hmodify.trans ?_)
    ac_rfl

/-- Filing a record keeps the table consistent. -/
theorem RecordFiled.tableInv {n : ℕ} {ft ft' : FlowTrack} {tmp : Flow}
    (h : RecordFiled n ft tmp ft') : ∃ n' ≤ n + 1, TableInv n' ft' := by
  cases h with
  | started hnone hinv hperm => exact ⟨n + 1, Nat.le_refl _, hinv⟩
  | added flow hsome hinv hseq hmap => exact ⟨n, Nat.le_succ n, hinv⟩

/-- A packet is bad, or it is counted once. -/
theorem CaptureInv.processPacket {l : CaptureLog} {ft ft' : FlowTrack} (h : CaptureInv l ft)
    {m : Mem} {af : ℤ} {caplen len : UInt32} {received : Timeval} {r : PpResult}
    (hcall : ft.processPacket {} m af caplen len received = .ok (r, ft'))
    (hexact : ft.TakesExactly m af caplen len) : CaptureInv (l.take r len) ft' := by
  obtain ⟨n, hn, hinv⟩ := h.table
  have htotal : (ft.totalPackets + 1).toNat = ft.totalPackets.toNat + 1 :=
    toNat_add_of_lt hexact.totalPackets
  have hlt : n < 2 ^ 64 := by have := hexact.totalPackets; omega
  -- a packet is bad, or it is filed under its flow
  cases hinv.processPacket_step hlt hcall with
  | bad hrecord =>
    have hbad : (ft.badPackets + 1).toNat = ft.badPackets.toNat + 1 := by
      apply toNat_add_of_lt
      have := h.packets
      have := hexact.totalPackets
      rw [UInt64.toNat_one]
      omega
    refine ⟨⟨n, ?_, hinv.of_table rfl⟩, ?_, h.balance⟩
    · show n ≤ (ft.totalPackets + 1).toNat
      omega
    · show (ft.totalPackets + 1).toNat = (ft.badPackets + 1).toNat + l.packets
      have := h.packets
      omega
  | @filed tmp frag _ hrecord hcounters hfiled =>
    obtain ⟨htotal', hrest⟩ := Prod.mk.inj hcounters
    obtain ⟨hbad', hstatistics⟩ := Prod.mk.inj hrest
    have hpacket := ((packetRecord_isPacket hrecord).mask ft).traffic
    -- one packet more among the live flows, and no change of the counters of expired ones
    have hlive : traffic ft'.flows = traffic ft.flows + (1, len.toNat) :=
      hpacket ▸ hfiled.traffic hinv fun f hf => hexact.flow tmp frag f hrecord hf
    refine ⟨?_, ?_, ?_⟩
    · obtain ⟨n', hn', hinv'⟩ := hfiled.tableInv
      exact ⟨n', by rw [htotal', htotal]; omega, hinv'⟩
    · rw [htotal', hbad', htotal, h.packets]
      exact Nat.add_assoc ..
    · rw [hlive, hstatistics]
      show (l.packets, l.octets) + (1, len.toNat) = _
      rw [h.balance]
      ac_rfl

/-- What live flows lose the sums per protocol gain. -/
theorem CaptureInv.checkExpired {l : CaptureLog} {s s' : Daemon} {c : ExpiryCall} {r : ℤ}
    (h : CaptureInv l s.tracker.ft) (halloc : c.reallocOk = fun _ => true)
    (hcall : Softflowd.checkExpired c s = .ok (r, s'))
    (hexact : ∀ ft expired, scanExpired c.now c.ex c.reallocOk s.tracker.ft = .ok (ft, expired) →
      ft.statistics.CountAllExactly expired) : CaptureInv l s'.tracker.ft := by
  obtain ⟨n, hn, hinv⟩ := h.table
  obtain ⟨ft, gone, hscan, hinv', -, hperm, hstatistics, hcounters, -⟩ :=
    hinv.checkExpired_cases halloc hcall
  obtain ⟨htotal, hrest⟩ := Prod.mk.inj hcounters
  obtain ⟨hbad, hcounted⟩ := Prod.mk.inj hrest
  have hgone : ft.statistics.CountAllExactly gone :=
    (hexact ft _ hscan).congr (bill_map_retire gone).symm
  have hsame : ft.statistics.traffic = s.tracker.ft.statistics.traffic := by
    rw [hstatistics]
    rfl
  refine ⟨⟨n, htotal ▸ hn, hinv'⟩, ?_, ?_⟩
  · rw [htotal, hbad]
    exact h.packets
  · rw [h.balance, hcounted, hgone.traffic, hsame, traffic_perm hperm, traffic_append,
      add_comm (traffic gone), add_assoc (traffic s'.tracker.ft.flows), add_comm (traffic gone)]

/-- After fewer than `2 ^ 32` packets and octets a call of `check_expired` wraps no counter. -/
theorem CaptureInv.countAllExactly {l : CaptureLog} {ft ft' : FlowTrack} (h : CaptureInv l ft)
    (hpackets : l.packets < 2 ^ 32) (hoctets : l.octets < 2 ^ 32) {now : Timeval} {ex : ExpireMode}
    {expired : List Flow} (hscan : scanExpired now ex (fun _ => true) ft = .ok (ft', expired)) :
    ft'.statistics.CountAllExactly expired := by
  obtain ⟨n, -, hinv⟩ := h.table
  obtain ⟨ft₁, gone, hscan₁, -, -, hperm, hcounters, -⟩ := hinv.scanExpired_counters now ex
  obtain ⟨rfl, rfl⟩ := Prod.mk.inj (Except.ok.inj (hscan.symm.trans hscan₁))
  have hstatistics := congrArg (fun x => x.2.2.traffic) hcounters
  have hbalance := h.balance
  rw [traffic_perm hperm, traffic_append] at hbalance
  -- what the statistics and the flows that go have in common with the log
  have hfst := congrArg Prod.fst hbalance
  have hsnd := congrArg Prod.snd hbalance
  simp only [Prod.fst_add] at hfst
  simp only [Prod.snd_add] at hsnd
  have hpp : total ft'.statistics.packetsPp = ft.statistics.traffic.1 := congrArg Prod.fst hstatistics
  have hop : total ft'.statistics.octetsPp = ft.statistics.traffic.2 := congrArg Prod.snd hstatistics
  exact (Statistics.CountAllExactly.of_lt (by omega) (by omega)).congr (bill_map_retire gone)

/-- The invariant holds in every state of a run. -/
theorem CaptureRun.inv {l : CaptureLog} {s : Daemon} (h : CaptureRun l s) :
    CaptureInv l s.tracker.ft := by
  induction h with
  | @init s hinit hzero =>
    obtain ⟨htotal, hrest⟩ := Prod.mk.inj hzero
    obtain ⟨hbad, hstatistics⟩ := Prod.mk.inj hrest
    refine ⟨⟨0, Nat.zero_le _, ?_⟩, ?_, ?_⟩
    · exact .empty hinit.flows_eq hinit.expiries_eq hinit.nextFlowSeq_eq hinit.numFlows_eq
    · rw [htotal, hbad]
      rfl
    · rw [hinit.flows_eq, hstatistics]
      rw [traffic_nil, Statistics.traffic_empty]
      rfl
  | processPacket m af caplen len received _ hcall hexact ih => exact ih.processPacket hcall hexact
  -- forcing and deleting leave the counters alone
  | forceExpire num _ ih =>
    obtain ⟨n, hn, hinv⟩ := ih.table
    obtain ⟨hinv', -, hflows, hcounters⟩ := hinv.forceExpire_cases num
    obtain ⟨htotal, hrest⟩ := Prod.mk.inj hcounters
    obtain ⟨hbad, hstatistics⟩ := Prod.mk.inj hrest
    refine ⟨⟨n, htotal ▸ hn, hinv'⟩, ?_, ?_⟩
    · rw [htotal, hbad]
      exact ih.packets
    · rw [hflows, hstatistics]
      exact ih.balance
  | checkExpired c _ halloc hcall hexact ih => exact ih.checkExpired halloc hcall hexact
  | deleteAllFlows _ hcall ih =>
    obtain ⟨n, hn, hinv⟩ := ih.table
    obtain ⟨hinv', -, hflows, hcounters, -⟩ := hinv.deleteAllFlows_cases hcall
    obtain ⟨htotal, hrest⟩ := Prod.mk.inj hcounters
    obtain ⟨hbad, hstatistics⟩ := Prod.mk.inj hrest
    refine ⟨⟨n, htotal ▸ hn, hinv'⟩, ?_, ?_⟩
    · rw [htotal, hbad]
      exact ih.packets
    · rw [hflows, hstatistics, traffic_nil, zero_add, traffic_append]
      apply ih.balance.trans
      ac_rfl

/-- **Packets and octets are conserved.** In every state of a run on the capture path that wraps no
counter, each packet that was not bad is counted once, with its length: by a live flow, by the sums
of the expired flows or by a flow that has been deleted. -/
theorem CaptureRun.conserved {l : CaptureLog} {s : Daemon} (h : CaptureRun l s) :
    s.tracker.ft.totalPackets.toNat = s.tracker.ft.badPackets.toNat +
        (traffic s.tracker.ft.flows).1 + total s.tracker.ft.packetsPp + (traffic l.deleted).1 ∧
      l.octets =
        (traffic s.tracker.ft.flows).2 + total s.tracker.ft.octetsPp + (traffic l.deleted).2 := by
  have hinv := h.inv
  have hpackets := congrArg Prod.fst hinv.balance
  have hoctets := congrArg Prod.snd hinv.balance
  rw [Prod.fst_add, Prod.fst_add] at hpackets
  rw [Prod.snd_add, Prod.snd_add] at hoctets
  refine ⟨?_, hoctets⟩
  rw [hinv.packets, show l.packets = _ from hpackets, ← Nat.add_assoc, ← Nat.add_assoc]
  rfl

/-- A packet that starts a flow in an empty table. -/
theorem CaptureRun.exists_packet {l : CaptureLog} {s : Daemon} (h : CaptureRun l s)
    (hnil : s.tracker.ft.flows = []) (htotal : s.tracker.ft.totalPackets.toNat + 1 < 2 ^ 64) :
    ∃ ft, CaptureRun (l.take .ok 28) { s with tracker := { s.tracker with ft := ft } } ∧
      ft.flows.length = 1 ∧ ft.totalPackets = s.tracker.ft.totalPackets + 1 := by
  obtain ⟨n, hn, hinv⟩ := h.inv.table
  have hlt : n < 2 ^ 64 := by omega
  obtain ⟨r, ft, hcall, -⟩ := hinv.processPacket hlt (floodPacket 0) afInet 28 28 {}
  obtain ⟨tmp, hrecord, -⟩ := packetRecord_floodPacket 0
  have hnone : ∀ f, s.tracker.ft.flowFind f = none := fun f => by
    rw [FlowTrack.flowFind, hnil]
    rfl
  have hstep := hinv.processPacket_step hlt hcall
  rw [hrecord] at hstep
  cases hstep with
  | bad hbad => contradiction
  | filed _ hcounters hfiled =>
    refine ⟨ft, h.processPacket (floodPacket 0) afInet 28 28 {} hcall ⟨htotal, ?_⟩, ?_,
      congrArg Prod.fst hcounters⟩
    · intro tmp' frag' f _ hf
      rw [hnone] at hf
      cases hf
    · cases hfiled with
      | started _ _ hperm => simpa [hnil] using hperm.length_eq
      | added flow hfind _ _ _ =>
        rw [hnone] at hfind
        cases hfind

/-- A packet whose flow expires, one that starts the flow again, and one that is no IP packet. -/
theorem conserved_threePackets :
    ∃ l s, CaptureRun l s ∧ l.octets = 56 ∧ s.tracker.ft.totalPackets = 3 ∧
      s.tracker.ft.badPackets = 1 ∧ s.tracker.ft.flows.length = 1 ∧
      s.tracker.ft.totalPackets.toNat = s.tracker.ft.badPackets.toNat +
          (traffic s.tracker.ft.flows).1 + total s.tracker.ft.packetsPp + (traffic l.deleted).1 ∧
        l.octets =
          (traffic s.tracker.ft.flows).2 + total s.tracker.ft.octetsPp + (traffic l.deleted).2 := by
  have hinit : CaptureRun {} {} := .init ⟨rfl, rfl, rfl, rfl⟩ rfl
  obtain ⟨ft₁, hfirst, hlength, htotal₁⟩ := hinit.exists_packet rfl (by decide)
  obtain ⟨n, hn, hinv⟩ := hfirst.inv.table
  obtain ⟨r, s₂, hcall, hnil⟩ := hinv.exists_drained (n := n) 1 hlength.le
  have hforced := hfirst.forceExpire 1
  have hdrained := hforced.checkExpired {} rfl hcall fun ft expired hscan =>
    hforced.inv.countAllExactly (by decide) (by decide) hscan
  obtain ⟨hinv', -, -, hcounters'⟩ := hinv.forceExpire_cases 1
  obtain ⟨_, _, -, -, -, -, -, hcounters, -⟩ := hinv'.checkExpired_cases rfl hcall
  have htotal₂ : s₂.tracker.ft.totalPackets = 1 :=
    (congrArg Prod.fst hcounters).trans ((congrArg Prod.fst hcounters').trans htotal₁)
  obtain ⟨ft₃, hsecond, hlength₃, htotal₃⟩ :=
    hdrained.exists_packet hnil (by rw [htotal₂]; decide)
  have htotal : ft₃.totalPackets = 2 := htotal₃.trans (congrArg (· + 1) htotal₂)
  have hthird := hsecond.processPacket (floodPacket 0) 0 28 28 {} rfl
    ⟨by rw [htotal]; decide, fun tmp frag f hnone _ => by cases hnone⟩
  have htotal' : ft₃.totalPackets + 1 = 3 := congrArg (· + 1) htotal
  refine ⟨_, _, hthird, rfl, htotal', ?_, hlength₃, hthird.conserved⟩
  -- two of the three packets were taken
  have hpackets : (ft₃.totalPackets + 1).toNat = (ft₃.badPackets + 1).toNat + 2 :=
    hthird.inv.packets
  rw [htotal', show UInt64.toNat 3 = 3 from rfl] at hpackets
  apply UInt64.toNat_inj.mp
  change (ft₃.badPackets + 1).toNat = 1
  omega

end Softflowd
