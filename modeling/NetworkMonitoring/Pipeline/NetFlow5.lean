import NetworkMonitoring.Flowd.NetFlow5
import NetworkMonitoring.Pipeline.Report
import NetworkMonitoring.Softflowd.NetFlow5Batches

/-!
# From the NetFlow v5 exporter to the collector

`softflowd` and `flowd` declare the packet structures separately. The two layouts agree field by
field (`run_readNf5Header`, `run_readNf5Flow`), so the collector reads back what the exporter
wrote (`decodeNetflowV5_bytes`), and the batches of `send_netflow_v5` carry every selected
direction of the flows once and in order.
-/

namespace Pipeline

open Bytes Softflowd

/-! ## One structure at a time -/

/-- The collector's view of a header. -/
def receivedHeader (h : Nf5Header) : Flowd.Nf5Header :=
  { version := h.version, flows := h.flows, uptimeMs := h.uptimeMs, timeSec := h.timeSec
    timeNanosec := h.timeNanosec, flowSequence := h.flowSequence, engineType := h.engineType
    engineId := h.engineId, reserved1 := h.reserved1, reserved2 := h.reserved2
    emulatorMonitorAdr := h.emulatorMonitorAdr }

/-- The collector's view of a record. -/
def receivedFlow (f : Nf5Flow) : Flowd.Nf5Flow :=
  { srcIp := f.srcIp, destIp := f.destIp, nexthopIp := f.nexthopIp, ifIndexIn := f.ifIndexIn
    ifIndexOut := f.ifIndexOut, flowPackets := f.flowPackets, flowOctets := f.flowOctets
    flowStart := f.flowStart, flowFinish := f.flowFinish, srcPort := f.srcPort
    destPort := f.destPort, pad1 := f.pad1, tcpFlags := f.tcpFlags, protocol := f.protocol
    tos := f.tos, srcAs := f.srcAs, destAs := f.destAs, srcMask := f.srcMask
    dstMask := f.dstMask, pad2 := f.pad2, emulatorMonitorAdr := f.emulatorMonitorAdr }

theorem run_readNf5Header (h : Nf5Header) (bs : List UInt8) :
    Flowd.readNf5Header.run (h.bytes ++ bs) = (receivedHeader h, bs) := by
  simp only [Flowd.readNf5Header, Nf5Header.bytes, List.append_assoc, List.cons_append,
    StateT.run_bind, StateT.run_pure, run_read8, run_read16, run_read32, run_readOctets, pure_bind]
  rfl

theorem run_readNf5Flow (f : Nf5Flow) (bs : List UInt8) :
    Flowd.readNf5Flow.run (f.bytes ++ bs) = (receivedFlow f, bs) := by
  simp only [Flowd.readNf5Flow, Nf5Flow.bytes, List.append_assoc, List.cons_append,
    StateT.run_bind, StateT.run_pure, run_read8, run_read16, run_read32, run_readOctets, pure_bind]
  rfl

/-! ## One datagram -/

/-- The collector accepts a well-formed datagram and reads its records. -/
theorem decodeNetflowV5_bytes {env : V5Env} {exported : UInt64} {d : Nf5Datagram}
    (h : d.WellFormed env exported) (fp : Flowd.FlowPacket) (hfp : fp.packet = d.bytes) :
    Flowd.decodeNetflowV5 fp = some (d.flows.map fun r =>
      Flowd.Nf5Flow.toStore fp (receivedHeader d.hdr) (receivedFlow r)) := by
  have hlen : fp.packet.length = 28 + d.flows.length * 56 := by
    rw [hfp, Nf5Datagram.bytes, List.length_append, Nf5Header.length_bytes,
      length_flatMap_const Nf5Flow.length_bytes]
  have hle : d.flows.length ≤ 30 := h.flows_le
  have hpos := h.flows_pos
  have hhdr : (Flowd.readNf5Header.run fp.packet).1 = receivedHeader d.hdr := by
    rw [hfp, Nf5Datagram.bytes, run_readNf5Header]
  have hn : (htons (receivedHeader d.hdr).flows).toNat = d.flows.length := by
    have hflows : (receivedHeader d.hdr).flows = htons (UInt16.ofNat d.flows.length) := by
      rw [receivedHeader, h.hdr_eq]
    rw [hflows, htons_htons, UInt16.toNat_ofNat', Nat.mod_eq_of_lt (by omega)]
  -- the three checks pass
  unfold Flowd.decodeNetflowV5
  simp only [hhdr, hn, hlen, Flowd.nf5MaxFlows, Flowd.nf5PacketSize]
  rw [if_neg (by omega), if_neg (by omega), if_neg (by omega), Option.some.injEq]
  refine List.ext_getElem (by simp) fun i hi _ => ?_
  have hi' : i < d.flows.length := by simpa using hi
  -- what stands behind the first `i` records
  have hdrop : fp.packet.drop (28 + i * 56) =
      d.flows[i].bytes ++ (d.flows.drop (i + 1)).flatMap Nf5Flow.bytes := by
    rw [hfp, Nf5Datagram.bytes, ← List.drop_drop, List.drop_left' (Nf5Header.length_bytes _),
      drop_flatMap Nf5Flow.length_bytes, List.drop_eq_getElem_cons hi', List.flatMap_cons]
  simp only [List.getElem_map, List.getElem_range, hdrop, run_readNf5Flow]

/-- What a collector's record reports about a flow, with its AS numbers. -/
def asReport (r : Flowd.StoreFlowComplete) : FlowReport × UInt32 × UInt32 :=
  (r.report, r.srcAs, r.dstAs)

/-- What is to be reported about one flow: its selected directions with a nonzero octet count. -/
def asReports (env : V5Env) (f : Flow) : List (FlowReport × UInt32 × UInt32) :=
  if f.af = Softflowd.afInet then
    ([0, 1].filter (env.selects f)).map fun d =>
      (f.report env.boot d (env.stat f d), f.asSrc d, f.asDst d.other)
  else []

/-- What the collector stores for the record of a direction is what the flow says about it. -/
theorem asReport_toStore (env : V5Env) {f : Flow} (haf : f.af = Softflowd.afInet) (d : Dir)
    (fp : Flowd.FlowPacket) (hdr : Flowd.Nf5Header) :
    asReport (Flowd.Nf5Flow.toStore fp hdr (receivedFlow (env.record f d))) =
      (f.report env.boot d (env.stat f d), f.asSrc d, f.asDst d.other) := by
  simp [asReport, Flowd.StoreFlowComplete.report, Flowd.Nf5Flow.toStore, receivedFlow,
    V5Env.record, Flow.report, Flow.address, haf, Flowd.Xaddr.address_copy_v4, Flowd.storeHtonll,
    -List.ofFn_succ]

/-! ## A whole call -/

/-- The datagrams of a call reach the collector one by one; `recv` gives the time and the source
each of them is received with. -/
def collectV5 (recv : List UInt8 → Flowd.FlowPacket) (ds : List (List UInt8)) :
    List Flowd.StoreFlowComplete :=
  ds.flatMap fun d => (Flowd.processNetflowV5 { recv d with packet := d } {}).2

/-- The collector's records of a well-formed datagram. -/
def storedRecords (recv : List UInt8 → Flowd.FlowPacket) (d : Nf5Datagram) :
    List Flowd.StoreFlowComplete :=
  d.flows.map fun r => Flowd.Nf5Flow.toStore { recv d.bytes with packet := d.bytes }
    (receivedHeader d.hdr) (receivedFlow r)

theorem processNetflowV5_bytes {env : V5Env} {exported : UInt64} {d : Nf5Datagram}
    (h : d.WellFormed env exported) (recv : List UInt8 → Flowd.FlowPacket)
    (peer : Flowd.PeerState) :
    Flowd.processNetflowV5 { recv d.bytes with packet := d.bytes } peer =
      (peer.update d.flows.length 5, storedRecords recv d) := by
  unfold Flowd.processNetflowV5
  rw [decodeNetflowV5_bytes h _ rfl]
  simp [storedRecords]

theorem collectV5_bytes (recv : List UInt8 → Flowd.FlowPacket) {env : V5Env}
    {ds : List Nf5Datagram} (h : ∀ d ∈ ds, ∃ exported, d.WellFormed env exported) :
    collectV5 recv (ds.map Nf5Datagram.bytes) = ds.flatMap (storedRecords recv) := by
  unfold collectV5
  rw [List.flatMap_map]
  refine List.flatMap_congr fun d hd => ?_
  obtain ⟨exported, hwf⟩ := h d hd
  rw [processNetflowV5_bytes hwf]

theorem length_collectV5 (recv : List UInt8 → Flowd.FlowPacket) {env : V5Env}
    {ds : List Nf5Datagram} (h : ∀ d ∈ ds, ∃ exported, d.WellFormed env exported) :
    (collectV5 recv (ds.map Nf5Datagram.bytes)).length = (nf5Records ds).length := by
  rw [collectV5_bytes recv h, nf5Records]
  simp [List.length_flatMap, storedRecords]

/-- The store record of an exported record reports the same with every packet header. -/
theorem map_asReport_storedRecords (recv : List UInt8 → Flowd.FlowPacket)
    (ds : List Nf5Datagram) (fp : Flowd.FlowPacket) (hdr : Flowd.Nf5Header) :
    (ds.flatMap (storedRecords recv)).map asReport =
      (nf5Records ds).map fun r => asReport (Flowd.Nf5Flow.toStore fp hdr (receivedFlow r)) := by
  rw [nf5Records, List.map_flatMap, List.map_flatMap]
  refine List.flatMap_congr fun d _ => ?_
  rw [storedRecords, List.map_map]
  rfl

theorem map_asReport_records (env : V5Env) (fp : Flowd.FlowPacket) (hdr : Flowd.Nf5Header)
    (f : Flow) :
    (env.records f).map (fun r => asReport (Flowd.Nf5Flow.toStore fp hdr (receivedFlow r))) =
      asReports env f := by
  by_cases haf : f.af = Softflowd.afInet
  · simp only [V5Env.records, asReports, haf, if_true, List.map_map]
    exact List.map_congr_left fun d _ => asReport_toStore env haf d fp hdr
  · simp only [V5Env.records, asReports, haf, if_false, List.map_nil]

/-- **NetFlow v5 round trip.** If every `send` succeeds, the datagrams `ds` of a call of
`send_netflow_v5` carry 1 to 30 records each, the collector accepts them, and what it stores is,
in order, the selected directions of the IPv4 flows. The sequence number of a datagram is the
number of records exported before it. -/
theorem netflowV5_roundTrip (usingEmulator : Bool) (now boot : Timeval) (inOut : ℤ)
    (flows : List Flow) (exported : UInt64) (ex : Exporter)
    (recv : List UInt8 → Flowd.FlowPacket) (hsend : ∀ k, ex.net.sendFails k = false)
    (hidx : ∀ f ∈ flows, f.selectedMonitorIndex.toNat < maxEmulators) :
    ∃ ds : List (List UInt8),
      sendNetflowV5 usingEmulator now flows exported boot inOut ex =
        .ok ((ds.length : ℤ), exported + UInt64.ofNat (collectV5 recv ds).length, { ex with
          net := { ex.net with
            sent := ex.net.sent ++ ds, attempts := ex.net.attempts + ds.length } }) ∧
      (∀ pre d post, ds = pre ++ d :: post → ∃ rs,
        (∀ peer, Flowd.processNetflowV5 { recv d with packet := d } peer =
          (peer.update rs.length 5, rs)) ∧
        1 ≤ rs.length ∧ rs.length ≤ 30 ∧ d.length = 28 + rs.length * 56 ∧
        ∀ r ∈ rs, (htonl r.flowSequence).toNat =
          (exported.toNat + (collectV5 recv pre).length) % 2 ^ 32) ∧
      (collectV5 recv ds).map asReport =
        flows.flatMap (asReports ⟨usingEmulator, now, boot, inOut⟩) := by
  obtain ⟨ds, hcall, hnum, hrecords⟩ :=
    sendNetflowV5_spec usingEmulator now boot inOut flows exported ex hsend hidx
  have hwf : ∀ d ∈ ds, ∃ e, d.WellFormed ⟨usingEmulator, now, boot, inOut⟩ e := by
    intro d hd
    obtain ⟨pre, post, rfl⟩ := List.append_of_mem hd
    exact ⟨_, hnum pre d post rfl⟩
  refine ⟨ds.map Nf5Datagram.bytes, ?_, ?_, ?_⟩
  · rw [hcall, length_collectV5 recv hwf, List.length_map]
  · intro bpre b bpost hb
    obtain ⟨pre, rest, rfl, rfl, hrest⟩ := List.map_eq_append_iff.mp hb
    obtain ⟨d, post, rfl, rfl, rfl⟩ := List.map_eq_cons_iff.mp hrest
    have hd := hnum pre d post rfl
    -- what the collector stores for one datagram
    refine ⟨storedRecords recv d, fun peer => ?_, ?_, ?_, ?_, ?_⟩
    · rw [processNetflowV5_bytes hd, storedRecords, List.length_map]
    · rw [storedRecords, List.length_map]
      exact hd.flows_pos
    · rw [storedRecords, List.length_map]
      exact hd.flows_le
    · rw [Nf5Datagram.bytes, List.length_append, Nf5Header.length_bytes,
        length_flatMap_const Nf5Flow.length_bytes, storedRecords, List.length_map]
    · intro r hr
      obtain ⟨r', -, rfl⟩ := List.mem_map.mp hr
      have hseq : (receivedHeader d.hdr).flowSequence =
          htonl (exported + UInt64.ofNat (nf5Records pre).length).toUInt32 := by
        rw [receivedHeader, hd.hdr_eq]
        rfl
      rw [length_collectV5 recv fun d hd => hwf d (List.mem_append_left _ hd)]
      simp only [Flowd.Nf5Flow.toStore, hseq, htonl_htonl, UInt64.toNat_toUInt32,
        UInt64.toNat_add, UInt64.toNat_ofNat']
      omega
  · rw [collectV5_bytes recv hwf, map_asReport_storedRecords recv ds ⟨0, 0, {}, []⟩
      (receivedHeader {}), hrecords, List.map_flatMap]
    exact List.flatMap_congr fun f _ => map_asReport_records _ _ _ f

/-- A TCP flow with traffic in both directions, behind an IPv6 flow. -/
theorem netflowV5_roundTrip_sample :
    ∃ ds : List (List UInt8), ds.length = 1 ∧
      ((collectV5 (fun d => { packet := d }) ds).map asReport).map (fun r => (r.1.octets, r.2)) =
        [(100, 7, 9), (40, 0, 0)] := by
  let flow : Flow :=
    { af := Softflowd.afInet, protocol := ipprotoTcp, octets := ![100, 40], packets := ![2, 1]
      asSrc := ![7, 0], asDst := ![0, 9] }
  obtain ⟨ds, hcall, -, hreports⟩ := netflowV5_roundTrip false {} {} (-1)
    [{ flow with af := Softflowd.afInet6 }, flow] 0 {} (fun d => { packet := d })
    (fun _ => rfl) (by decide)
  have hlen : (sendNetflowV5 false {} [{ flow with af := Softflowd.afInet6 }, flow] 0 {} (-1)
      {}).toOption.map Prod.fst = some 1 := by
    decide +kernel
  refine ⟨ds, ?_, ?_⟩
  · rw [hcall] at hlen
    simpa [Except.toOption] using hlen
  · rw [hreports]
    decide +kernel

end Pipeline
