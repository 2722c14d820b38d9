import NetworkMonitoring.Flowd.NetFlow1
import NetworkMonitoring.Pipeline.Report
import NetworkMonitoring.Softflowd.NetFlow1Batches

/-!
# From the NetFlow v1 exporter to the collector

The headers of the two programs agree. Their records agree in the first 52 bytes only
(`run_readNf1Flow`): `softflowd` has the AS numbers behind them, which the structure of the
collector lacks. A datagram of `n` records has `20 + 56 * n` bytes where `process_netflow_v1`
asks for `20 + 52 * n`, so the collector rejects every datagram of the exporter
(`decodeNetflowV1_bytes`).
-/

namespace Pipeline

open Bytes Softflowd

/-- The collector's view of a v1 header. -/
def receivedNf1Header (h : Nf1Header) : Flowd.Nf1Header :=
  { version := h.version, flows := h.flows, uptimeMs := h.uptimeMs, timeSec := h.timeSec
    timeNanosec := h.timeNanosec, emulatorMonitorAdr := h.emulatorMonitorAdr }

/-- The collector's view of a v1 record. -/
def receivedNf1Flow (f : Nf1Flow) : Flowd.Nf1Flow :=
  { srcIp := f.srcIp, destIp := f.destIp, nexthopIp := f.nexthopIp, ifIndexIn := f.ifIndexIn
    ifIndexOut := f.ifIndexOut, flowPackets := f.flowPackets, flowOctets := f.flowOctets
    flowStart := f.flowStart, flowFinish := f.flowFinish, srcPort := f.srcPort
    destPort := f.destPort, pad1 := f.pad1, protocol := f.protocol, tos := f.tos
    tcpFlags := f.tcpFlags, pad2 := f.pad2, pad3 := f.pad3, pad4 := f.pad4
    reserved1 := f.reserved1, emulatorMonitorAdr := f.emulatorMonitorAdr }

theorem run_readNf1Header (h : Nf1Header) (bs : List UInt8) :
    Flowd.readNf1Header.run (h.bytes ++ bs) = (receivedNf1Header h, bs) := by
  simp only [Flowd.readNf1Header, Nf1Header.bytes, List.append_assoc, StateT.run_bind,
    StateT.run_pure, run_read16, run_read32, run_readOctets, pure_bind]
  rfl

/-- The collector leaves the last four bytes of a record unread. -/
theorem run_readNf1Flow (f : Nf1Flow) (bs : List UInt8) :
    Flowd.readNf1Flow.run (f.bytes ++ bs) =
      (receivedNf1Flow f, le16 f.asSrc ++ (le16 f.asDst ++ bs)) := by
  simp only [Flowd.readNf1Flow, Nf1Flow.bytes, List.append_assoc, List.cons_append,
    StateT.run_bind, StateT.run_pure, run_read8, run_read16, run_read32, run_readOctets, pure_bind]
  rfl

/-- The collector rejects a counted datagram: its length is not the one the collector computes
from the count. -/
theorem decodeNetflowV1_bytes {d : Nf1Datagram} (h : d.Counted) (tvUsec : ℤ)
    (fp : Flowd.FlowPacket) (hfp : fp.packet = d.bytes) :
    Flowd.decodeNetflowV1 tvUsec fp = none := by
  have hpos := h.flows_pos
  have hle : d.flows.length ≤ 24 := h.flows_le
  have hhdr : (Flowd.readNf1Header.run fp.packet).1 = receivedNf1Header d.hdr := by
    rw [hfp, Nf1Datagram.bytes, run_readNf1Header]
  have hn : (htons (receivedNf1Header d.hdr).flows).toNat = d.flows.length := by
    rw [receivedNf1Header, h.hdr_flows, htons_htons, UInt16.toNat_ofNat',
      Nat.mod_eq_of_lt (by omega)]
  have hlen : fp.packet.length ≠ Flowd.nf1PacketSize d.flows.length := by
    rw [hfp, d.length_bytes, Flowd.nf1PacketSize]
    omega
  simp only [Flowd.decodeNetflowV1, hhdr, hn]
  rw [if_pos hlen, ite_self, ite_self]

/-- The datagrams of a call reach the collector one by one; `recv` gives the time and the source
each of them is received with. -/
def collectV1 (tvUsec : ℤ) (recv : List UInt8 → Flowd.FlowPacket) (ds : List (List UInt8)) :
    List Flowd.StoreFlowComplete :=
  ds.flatMap fun d => (Flowd.processNetflowV1 tvUsec { recv d with packet := d } {}).2

/-- The round trip of the datagrams `ds`: the collector accepts each of them, and its records
report what is expected. -/
def RoundTripV1 (tvUsec : ℤ) (recv : List UInt8 → Flowd.FlowPacket) (expected : List FlowReport)
    (ds : List (List UInt8)) : Prop :=
  (∀ d ∈ ds, (Flowd.decodeNetflowV1 tvUsec { recv d with packet := d }).isSome) ∧
    (collectV1 tvUsec recv ds).map Flowd.StoreFlowComplete.report = expected

/-- **No NetFlow v1 round trip.** Whatever a call of `send_netflow_v1` exports, the collector
rejects each of its datagrams as invalid and stores nothing, so the round trip fails for every
array of flows with traffic in the selected direction. -/
theorem netflowV1_roundTrip_fails (now boot : Timeval) (asSrcArray asDstArray : Flow → UInt16)
    (d : Dir) (flows : List Flow) (exported : UInt64) (ex : Exporter) (tvUsec : ℤ)
    (recv : List UInt8 → Flowd.FlowPacket) (hne : flows ≠ [])
    (hflows : ∀ f ∈ flows, f.af = Softflowd.afInet ∧ 0 < f.octets d) :
    ∃ (r : ℤ) (exported' : UInt64) (net : Net) (ds : List (List UInt8)),
      sendNetflowV1 true now asSrcArray asDstArray flows exported boot d.val ex =
        .ok (r, exported', { ex with net := net }) ∧
      net.sent = ex.net.sent ++ ds ∧ (r ≠ -1 → ds ≠ []) ∧
      (∀ b ∈ ds, ∀ peer, Flowd.processNetflowV1 tvUsec { recv b with packet := b } peer =
        (peer.invalid, [])) ∧
      ¬ RoundTripV1 tvUsec recv (flows.map fun f => f.report boot d (f.totals d)) ds := by
  obtain ⟨r, exported', net, ds, hcall, hsent, hcounted, -, hall⟩ :=
    sendNetflowV1_spec true now asSrcArray asDstArray flows exported boot d.val ex
  have hreject : ∀ b ∈ ds.map Nf1Datagram.bytes, ∀ peer,
      Flowd.processNetflowV1 tvUsec { recv b with packet := b } peer = (peer.invalid, []) := by
    intro b hb peer
    obtain ⟨e, he, rfl⟩ := List.mem_map.mp hb
    rw [Flowd.processNetflowV1, decodeNetflowV1_bytes (hcounted e he) tvUsec _ rfl]
  refine ⟨r, exported', net, ds.map Nf1Datagram.bytes, hcall, hsent, fun hr hds => ?_, hreject,
    fun htrip => ?_⟩
  · -- the first flow has a record
    obtain rfl : ds = [] := by simpa using hds
    obtain ⟨f, hf⟩ := List.exists_mem_of_ne_nil flows hne
    obtain ⟨haf, hoctets⟩ := hflows f hf
    have hsel : V1Env.selects ⟨true, now, boot, d.val, asSrcArray, asDstArray⟩ f d := by
      simp [V1Env.selects, hoctets]
    have hmem := V1Env.record_mem haf hsel
    rw [List.flatMap_eq_nil_iff.mp (hall hr).symm f hf] at hmem
    exact List.not_mem_nil hmem
  · have hnothing : collectV1 tvUsec recv (ds.map Nf1Datagram.bytes) = [] := by
      rw [collectV1, List.flatMap_eq_nil_iff]
      intro b hb
      rw [hreject b hb]
    have hreports := htrip.2
    rw [hnothing] at hreports
    exact hne (by simpa using hreports.symm)

/-- A TCP flow with traffic in its first direction. -/
def oneWayFlow : Flow :=
  { af := Softflowd.afInet, protocol := ipprotoTcp, octets := ![100, 0], packets := ![2, 0] }

/-- The one datagram for `oneWayFlow` is rejected. -/
theorem netflowV1_roundTrip_fails_oneWay :
    ∃ (r : ℤ) (exported' : UInt64) (net : Net) (ds : List (List UInt8)),
      sendNetflowV1 true {} (fun _ => 0) (fun _ => 0) [oneWayFlow] 0 {} 0 {} =
        .ok (r, exported', { net := net }) ∧
      net.sent = ds ∧ (r ≠ -1 → ds ≠ []) ∧
      ¬ RoundTripV1 0 (fun b => { packet := b })
        [oneWayFlow.report {} 0 (oneWayFlow.totals 0)] ds := by
  obtain ⟨r, exported', net, ds, hcall, hsent, hne, -, hfails⟩ :=
    netflowV1_roundTrip_fails {} {} (fun _ => 0) (fun _ => 0) 0 [oneWayFlow] 0 {} 0
      (fun b => { packet := b }) (by simp) (by simp [oneWayFlow])
  exact ⟨r, exported', net, ds, hcall, by simpa using hsent, hne, hfails⟩

/-- The same by running both programs: the datagram has 76 bytes, and the collector asks for
72. -/
theorem netflowV1_roundTrip_short :
    ∃ net : Net,
      sendNetflowV1 true {} (fun _ => 0) (fun _ => 0) [oneWayFlow] 0 {} 0 {} =
        .ok (1, 1, { net := net }) ∧
      net.sent.map List.length = [76] ∧
      ¬ RoundTripV1 0 (fun b => { packet := b })
        [oneWayFlow.report {} 0 (oneWayFlow.totals 0)] net.sent := by
  refine ⟨_, rfl, by decide +kernel, ?_⟩
  intro htrip
  have haccepted := htrip.1 _ List.mem_cons_self
  revert haccepted
  decide +kernel

end Pipeline
