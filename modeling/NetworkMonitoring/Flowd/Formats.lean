import NetworkMonitoring.Flowd.NetFlow1
import NetworkMonitoring.Flowd.NetFlow5
import NetworkMonitoring.Flowd.NetFlow7
import NetworkMonitoring.Flowd.NetFlow9Calls

/-!
# flowd — one flow in four formats

A `FlowRecord` is what an exporter has to say about an IPv4 flow, in numbers that fit the fields of
NetFlow v1, v5, v7 and v9; a `Report` is what the header of a datagram says. Both are written into
the structures of `netflow.h` over arbitrary spare fields, in network byte order. A v9 record lists
its fields in the order of its template.

The decoder of each format gives back what was written (`processNetflowV1_report` and its sisters).
-/

namespace Flowd

open Bytes InetText ErrorLoops

/-! ## Packets of fixed structures -/

/-- The memory of a v1 header. -/
def Nf1Header.bytes (h : Nf1Header) : List UInt8 :=
  le16 h.version ++ (le16 h.flows ++ (le32 h.uptimeMs ++ (le32 h.timeSec ++ (le32 h.timeNanosec ++
    List.ofFn h.emulatorMonitorAdr))))

/-- The memory of a v1 record. -/
def Nf1Flow.bytes (f : Nf1Flow) : List UInt8 :=
  List.ofFn f.srcIp ++ (List.ofFn f.destIp ++ (List.ofFn f.nexthopIp ++ (le16 f.ifIndexIn ++
    (le16 f.ifIndexOut ++ (le32 f.flowPackets ++ (le32 f.flowOctets ++ (le32 f.flowStart ++
    (le32 f.flowFinish ++ (le16 f.srcPort ++ (le16 f.destPort ++ (le16 f.pad1 ++
    (f.protocol :: f.tos :: f.tcpFlags :: f.pad2 :: f.pad3 :: f.pad4 :: (le32 f.reserved1 ++
    List.ofFn f.emulatorMonitorAdr)))))))))))))

/-- The memory of a v5 header. -/
def Nf5Header.bytes (h : Nf5Header) : List UInt8 :=
  le16 h.version ++ (le16 h.flows ++ (le32 h.uptimeMs ++ (le32 h.timeSec ++ (le32 h.timeNanosec ++
    (le32 h.flowSequence ++ (h.engineType :: h.engineId :: h.reserved1 :: h.reserved2 ::
    List.ofFn h.emulatorMonitorAdr))))))

/-- The memory of a v5 record. -/
def Nf5Flow.bytes (f : Nf5Flow) : List UInt8 :=
  List.ofFn f.srcIp ++ (List.ofFn f.destIp ++ (List.ofFn f.nexthopIp ++ (le16 f.ifIndexIn ++
    (le16 f.ifIndexOut ++ (le32 f.flowPackets ++ (le32 f.flowOctets ++ (le32 f.flowStart ++
    (le32 f.flowFinish ++ (le16 f.srcPort ++ (le16 f.destPort ++ (f.pad1 :: f.tcpFlags ::
    f.protocol :: f.tos :: (le32 f.srcAs ++ (le32 f.destAs ++ (f.srcMask :: f.dstMask ::
    (le16 f.pad2 ++ List.ofFn f.emulatorMonitorAdr)))))))))))))))

/-- The memory of a v7 header. -/
def Nf7Header.bytes (h : Nf7Header) : List UInt8 :=
  le16 h.version ++ (le16 h.flows ++ (le32 h.uptimeMs ++ (le32 h.timeSec ++ (le32 h.timeNanosec ++
    (le32 h.flowSequence ++ le32 h.reserved1)))))

/-- The memory of a v7 record. -/
def Nf7Flow.bytes (f : Nf7Flow) : List UInt8 :=
  List.ofFn f.srcIp ++ (List.ofFn f.destIp ++ (List.ofFn f.nexthopIp ++ (le16 f.ifIndexIn ++
    (le16 f.ifIndexOut ++ (le32 f.flowPackets ++ (le32 f.flowOctets ++ (le32 f.flowStart ++
    (le32 f.flowFinish ++ (le16 f.srcPort ++ (le16 f.destPort ++ (f.flags1 :: f.tcpFlags ::
    f.protocol :: f.tos :: (le16 f.srcAs ++ (le16 f.destAs ++ (f.srcMask :: f.dstMask ::
    (le16 f.flags2 ++ le32 f.routerSc)))))))))))))))

/-- A header of version 1 is read back. -/
theorem run_readNf1Header (h : Nf1Header) (bs : List UInt8) :
    readNf1Header.run (h.bytes ++ bs) = (h, bs) := by
  simp only [readNf1Header, Nf1Header.bytes, List.append_assoc, StateT.run_bind, StateT.run_pure,
    run_read16, run_read32, run_readOctets, pure_bind]
  rfl

/-- A record of version 1 is read back. -/
theorem run_readNf1Flow (f : Nf1Flow) (bs : List UInt8) :
    readNf1Flow.run (f.bytes ++ bs) = (f, bs) := by
  simp only [readNf1Flow, Nf1Flow.bytes, List.append_assoc, List.cons_append, StateT.run_bind,
    StateT.run_pure, run_read8, run_read16, run_read32, run_readOctets, pure_bind]
  rfl

/-- A header of version 5 is read back. -/
theorem run_readNf5Header (h : Nf5Header) (bs : List UInt8) :
    readNf5Header.run (h.bytes ++ bs) = (h, bs) := by
  simp only [readNf5Header, Nf5Header.bytes, List.append_assoc, List.cons_append, StateT.run_bind,
    StateT.run_pure, run_read8, run_read16, run_read32, run_readOctets, pure_bind]
  rfl

/-- A record of version 5 is read back. -/
theorem run_readNf5Flow (f : Nf5Flow) (bs : List UInt8) :
    readNf5Flow.run (f.bytes ++ bs) = (f, bs) := by
  simp only [readNf5Flow, Nf5Flow.bytes, List.append_assoc, List.cons_append, StateT.run_bind,
    StateT.run_pure, run_read8, run_read16, run_read32, run_readOctets, pure_bind]
  rfl

/-- A header of version 7 is read back. -/
theorem run_readNf7Header (h : Nf7Header) (bs : List UInt8) :
    readNf7Header.run (h.bytes ++ bs) = (h, bs) := by
  simp only [readNf7Header, Nf7Header.bytes, List.append_assoc, StateT.run_bind, StateT.run_pure,
    run_read16, run_read32, pure_bind]
  rfl

/-- A record of version 7 is read back. -/
theorem run_readNf7Flow (f : Nf7Flow) (bs : List UInt8) :
    readNf7Flow.run (f.bytes ++ bs) = (f, bs) := by
  simp only [readNf7Flow, Nf7Flow.bytes, List.append_assoc, List.cons_append, StateT.run_bind,
    StateT.run_pure, run_read8, run_read16, run_read32, run_readOctets, pure_bind]
  rfl

/-- Reading the `i`-th of a row of structures behind a header. -/
theorem read_row {α : Type} {f : α → List UInt8} {read : StateM (List UInt8) α} {w k : ℕ}
    (hread : ∀ x bs, read.run (f x ++ bs) = (x, bs)) (hf : ∀ x, (f x).length = w)
    {front : List UInt8} (hfront : front.length = k) (xs : List α) {i : ℕ} (hi : i < xs.length) :
    (read.run ((front ++ xs.flatMap f).drop (k + i * w))).1 = xs[i] := by
  rw [← List.drop_drop, ← hfront, List.drop_left, drop_flatMap hf, List.drop_eq_getElem_cons hi,
    List.flatMap_cons, hread]

/-- A loop over the indices of a row is a loop over the row. -/
theorem map_range_eq {α β : Type} {xs : List α} {n : ℕ} (hn : n = xs.length) {g : ℕ → β}
    {f : α → β} (h : ∀ i (hi : i < xs.length), g i = f xs[i]) :
    (List.range n).map g = xs.map f := by
  subst hn
  refine List.ext_getElem (by simp) fun i hi hi' => ?_
  rw [List.length_map] at hi'
  simp [h i hi']

/-- The decoder of v1 on a counted packet. -/
theorem processNetflowV1_bytes (tvUsec : ℤ) {fp : FlowPacket} {hdr : Nf1Header} {fs : List Nf1Flow}
    (hfp : fp.packet = hdr.bytes ++ fs.flatMap Nf1Flow.bytes)
    (hcount : (htons hdr.flows).toNat = fs.length) (hpos : 0 < fs.length)
    (hmax : fs.length ≤ nf1MaxFlows) (peer : PeerState) :
    (processNetflowV1 tvUsec fp peer).2 = fs.map (Nf1Flow.toStore tvUsec fp hdr) := by
  have hheader : hdr.bytes.length = 20 := by simp [Nf1Header.bytes]
  have hflow : ∀ f : Nf1Flow, f.bytes.length = 52 := fun f => by simp [Nf1Flow.bytes]
  have hlen : fp.packet.length = nf1PacketSize fs.length := by
    rw [hfp, List.length_append, hheader, length_flatMap_const hflow, nf1PacketSize]
  have hread : (readNf1Header.run fp.packet).1 = hdr := by rw [hfp, run_readNf1Header]
  have hrow : (List.range fs.length).map (fun i => Nf1Flow.toStore tvUsec fp hdr
      (readNf1Flow.run (fp.packet.drop (nf1PacketSize i))).1) =
        fs.map (Nf1Flow.toStore tvUsec fp hdr) := by
    refine map_range_eq rfl fun i hi => congrArg _ ?_
    rw [hfp, nf1PacketSize, read_row run_readNf1Flow hflow hheader fs hi]
  rw [processNetflowV1, decodeNetflowV1, hread, hcount, hrow,
    if_neg (by rw [hlen, nf1PacketSize]; omega), if_neg (by omega), if_neg (not_not.mpr hlen)]

/-- The decoder of v5 on a counted packet. -/
theorem processNetflowV5_bytes {fp : FlowPacket} {hdr : Nf5Header} {fs : List Nf5Flow}
    (hfp : fp.packet = hdr.bytes ++ fs.flatMap Nf5Flow.bytes)
    (hcount : (htons hdr.flows).toNat = fs.length) (hpos : 0 < fs.length)
    (hmax : fs.length ≤ nf5MaxFlows) (peer : PeerState) :
    (processNetflowV5 fp peer).2 = fs.map (Nf5Flow.toStore fp hdr) := by
  have hheader : hdr.bytes.length = 28 := by simp [Nf5Header.bytes]
  have hflow : ∀ f : Nf5Flow, f.bytes.length = 56 := fun f => by simp [Nf5Flow.bytes]
  have hlen : fp.packet.length = nf5PacketSize fs.length := by
    rw [hfp, List.length_append, hheader, length_flatMap_const hflow, nf5PacketSize]
  have hread : (readNf5Header.run fp.packet).1 = hdr := by rw [hfp, run_readNf5Header]
  have hrow : (List.range fs.length).map (fun i => Nf5Flow.toStore fp hdr
      (readNf5Flow.run (fp.packet.drop (nf5PacketSize i))).1) =
        fs.map (Nf5Flow.toStore fp hdr) := by
    refine map_range_eq rfl fun i hi => congrArg _ ?_
    rw [hfp, nf5PacketSize, read_row run_readNf5Flow hflow hheader fs hi]
  rw [processNetflowV5, decodeNetflowV5, hread, hcount, hrow,
    if_neg (by rw [hlen, nf5PacketSize]; omega), if_neg (by omega), if_neg (not_not.mpr hlen)]

/-- The decoder of v7 on a counted packet. -/
theorem processNetflowV7_bytes {fp : FlowPacket} {hdr : Nf7Header} {fs : List Nf7Flow}
    (hfp : fp.packet = hdr.bytes ++ fs.flatMap Nf7Flow.bytes)
    (hcount : (htons hdr.flows).toNat = fs.length) (hpos : 0 < fs.length)
    (hmax : fs.length ≤ nf7MaxFlows) (peer : PeerState) :
    (processNetflowV7 fp peer).2 = fs.map (Nf7Flow.toStore fp hdr) := by
  have hheader : hdr.bytes.length = 24 := by simp [Nf7Header.bytes]
  have hflow : ∀ f : Nf7Flow, f.bytes.length = 52 := fun f => by simp [Nf7Flow.bytes]
  have hlen : fp.packet.length = nf7PacketSize fs.length := by
    rw [hfp, List.length_append, hheader, length_flatMap_const hflow, nf7PacketSize]
  have hread : (readNf7Header.run fp.packet).1 = hdr := by rw [hfp, run_readNf7Header]
  have hrow : (List.range fs.length).map (fun i => Nf7Flow.toStore fp hdr
      (readNf7Flow.run (fp.packet.drop (nf7PacketSize i))).1) =
        fs.map (Nf7Flow.toStore fp hdr) := by
    refine map_range_eq rfl fun i hi => congrArg _ ?_
    rw [hfp, nf7PacketSize, read_row run_readNf7Flow hflow hheader fs hi]
  rw [processNetflowV7, decodeNetflowV7, hread, hcount, hrow,
    if_neg (by rw [hlen, nf7PacketSize]; omega), if_neg (by omega), if_neg (not_not.mpr hlen)]

/-! ## What an exporter reports -/

/-- What an exporter says about an IPv4 flow. The last three fields have what else stands in the
structures. -/
structure FlowRecord where
  srcIp : InAddr
  destIp : InAddr
  nexthopIp : InAddr
  srcPort : UInt16
  destPort : UInt16
  protocol : UInt8
  tos : UInt8
  tcpFlags : UInt8
  packets : UInt32
  octets : UInt32
  ifIndexIn : UInt16
  ifIndexOut : UInt16
  start : UInt32
  finish : UInt32
  srcAs : UInt16
  destAs : UInt16
  srcMask : UInt8
  dstMask : UInt8
  spare1 : Nf1Flow
  spare5 : Nf5Flow
  spare7 : Nf7Flow

/-- What the header of a datagram says. -/
structure Report where
  uptimeMs : UInt32
  timeSec : UInt32
  timeNanosec : UInt32
  flowSequence : UInt32
  engineType : UInt8
  engineId : UInt8
  sourceId : UInt32
  spare1 : Nf1Header
  spare5 : Nf5Header
  spare7 : Nf7Header

namespace FlowRecord

variable (r : FlowRecord)

/-- The record of NetFlow v1. -/
def nf1 : Nf1Flow := { r.spare1 with
  srcIp := r.srcIp, destIp := r.destIp, nexthopIp := r.nexthopIp
  ifIndexIn := htons r.ifIndexIn, ifIndexOut := htons r.ifIndexOut
  flowPackets := htonl r.packets, flowOctets := htonl r.octets
  flowStart := htonl r.start, flowFinish := htonl r.finish
  srcPort := htons r.srcPort, destPort := htons r.destPort
  protocol := r.protocol, tos := r.tos, tcpFlags := r.tcpFlags }

/-- The record of NetFlow v5, where the autonomous systems have 32 bits. -/
def nf5 : Nf5Flow := { r.spare5 with
  srcIp := r.srcIp, destIp := r.destIp, nexthopIp := r.nexthopIp
  ifIndexIn := htons r.ifIndexIn, ifIndexOut := htons r.ifIndexOut
  flowPackets := htonl r.packets, flowOctets := htonl r.octets
  flowStart := htonl r.start, flowFinish := htonl r.finish
  srcPort := htons r.srcPort, destPort := htons r.destPort
  protocol := r.protocol, tos := r.tos, tcpFlags := r.tcpFlags
  srcAs := htonl r.srcAs.toUInt32, destAs := htonl r.destAs.toUInt32
  srcMask := r.srcMask, dstMask := r.dstMask }

/-- The record of NetFlow v7. -/
def nf7 : Nf7Flow := { r.spare7 with
  srcIp := r.srcIp, destIp := r.destIp, nexthopIp := r.nexthopIp
  ifIndexIn := htons r.ifIndexIn, ifIndexOut := htons r.ifIndexOut
  flowPackets := htonl r.packets, flowOctets := htonl r.octets
  flowStart := htonl r.start, flowFinish := htonl r.finish
  srcPort := htons r.srcPort, destPort := htons r.destPort
  protocol := r.protocol, tos := r.tos, tcpFlags := r.tcpFlags
  srcAs := htons r.srcAs, destAs := htons r.destAs
  srcMask := r.srcMask, dstMask := r.dstMask }

end FlowRecord

namespace Report

variable (h : Report)

/-- The header of a v1 datagram with `n` records. -/
def nf1 (n : ℕ) : Nf1Header := { h.spare1 with
  version := htons 1, flows := htons (UInt16.ofNat n), uptimeMs := htonl h.uptimeMs
  timeSec := htonl h.timeSec, timeNanosec := htonl h.timeNanosec }

/-- The header of a v5 datagram. -/
def nf5 (n : ℕ) : Nf5Header := { h.spare5 with
  version := htons 5, flows := htons (UInt16.ofNat n), uptimeMs := htonl h.uptimeMs
  timeSec := htonl h.timeSec, timeNanosec := htonl h.timeNanosec
  flowSequence := htonl h.flowSequence, engineType := h.engineType, engineId := h.engineId }

/-- The header of a v7 datagram, which has no engine. -/
def nf7 (n : ℕ) : Nf7Header := { h.spare7 with
  version := htons 7, flows := htons (UInt16.ofNat n), uptimeMs := htonl h.uptimeMs
  timeSec := htonl h.timeSec, timeNanosec := htonl h.timeNanosec
  flowSequence := htonl h.flowSequence }

/-- The header of a v9 datagram. -/
def nf9 (n : ℕ) : Nf9Header where
  version := htons 9
  flows := htons (UInt16.ofNat n)
  uptimeMs := htonl h.uptimeMs
  timeSec := htonl h.timeSec
  packageSequence := htonl h.flowSequence
  sourceId := htonl h.sourceId

variable (rs : List FlowRecord)

/-- The datagram in NetFlow v1. -/
def datagram1 : List UInt8 :=
  (h.nf1 rs.length).bytes ++ (rs.map FlowRecord.nf1).flatMap Nf1Flow.bytes

/-- The datagram in NetFlow v5. -/
def datagram5 : List UInt8 :=
  (h.nf5 rs.length).bytes ++ (rs.map FlowRecord.nf5).flatMap Nf5Flow.bytes

/-- The datagram in NetFlow v7. -/
def datagram7 : List UInt8 :=
  (h.nf7 rs.length).bytes ++ (rs.map FlowRecord.nf7).flatMap Nf7Flow.bytes

/-- The flows of a datagram of version 1. -/
theorem processNetflowV1_datagram1 (tvUsec : ℤ) (fp : FlowPacket) (hfp : fp.packet = h.datagram1 rs)
    (hpos : 0 < rs.length) (hmax : rs.length ≤ nf1MaxFlows) (peer : PeerState) :
    (processNetflowV1 tvUsec fp peer).2 =
      rs.map fun r => Nf1Flow.toStore tvUsec fp (h.nf1 rs.length) r.nf1 := by
  have hmax' : rs.length ≤ 24 := hmax
  have hcount : (htons (h.nf1 rs.length).flows).toNat = (rs.map FlowRecord.nf1).length := by
    rw [nf1, htons_htons, UInt16.toNat_ofNat', List.length_map, Nat.mod_eq_of_lt (by omega)]
  rw [processNetflowV1_bytes tvUsec hfp hcount (by simpa using hpos) (by simpa using hmax),
    List.map_map]
  rfl

/-- The flows of a datagram of version 5. -/
theorem processNetflowV5_datagram5 (fp : FlowPacket) (hfp : fp.packet = h.datagram5 rs)
    (hpos : 0 < rs.length) (hmax : rs.length ≤ nf5MaxFlows) (peer : PeerState) :
    (processNetflowV5 fp peer).2 =
      rs.map fun r => Nf5Flow.toStore fp (h.nf5 rs.length) r.nf5 := by
  have hmax' : rs.length ≤ 30 := hmax
  have hcount : (htons (h.nf5 rs.length).flows).toNat = (rs.map FlowRecord.nf5).length := by
    rw [nf5, htons_htons, UInt16.toNat_ofNat', List.length_map, Nat.mod_eq_of_lt (by omega)]
  rw [processNetflowV5_bytes hfp hcount (by simpa using hpos) (by simpa using hmax), List.map_map]
  rfl

/-- The flows of a datagram of version 7. -/
theorem processNetflowV7_datagram7 (fp : FlowPacket) (hfp : fp.packet = h.datagram7 rs)
    (hpos : 0 < rs.length) (hmax : rs.length ≤ nf7MaxFlows) (peer : PeerState) :
    (processNetflowV7 fp peer).2 =
      rs.map fun r => Nf7Flow.toStore fp (h.nf7 rs.length) r.nf7 := by
  have hmax' : rs.length ≤ 30 := hmax
  have hcount : (htons (h.nf7 rs.length).flows).toNat = (rs.map FlowRecord.nf7).length := by
    rw [nf7, htons_htons, UInt16.toNat_ofNat', List.length_map, Nat.mod_eq_of_lt (by omega)]
  rw [processNetflowV7_bytes hfp hcount (by simpa using hpos) (by simpa using hmax), List.map_map]
  rfl

end Report

/-! ## Records under a template -/

/-- The fields of a record in NetFlow v9. -/
inductive Nf9Field where
  | inBytes | inPackets | inProtocol | srcTos | tcpFlags | l4SrcPort | ipv4SrcAddr | srcMask
  | inputSnmp | l4DstPort | ipv4DstAddr | dstMask | outputSnmp | ipv4NextHop | srcAs | dstAs
  | lastSwitched | firstSwitched | engineType | engineId
  deriving DecidableEq

namespace Nf9Field

/-- The number of the field in a template. -/
def type : Nf9Field → ℕ
  | inBytes => 1 | inPackets => 2 | inProtocol => 4 | srcTos => 5 | tcpFlags => 6 | l4SrcPort => 7
  | ipv4SrcAddr => 8 | srcMask => 9 | inputSnmp => 10 | l4DstPort => 11 | ipv4DstAddr => 12
  | dstMask => 13 | outputSnmp => 14 | ipv4NextHop => 15 | srcAs => 16 | dstAs => 17
  | lastSwitched => 21 | firstSwitched => 22 | engineType => 38 | engineId => 39

/-- The natural width of the field. -/
def len : Nf9Field → ℕ
  | inProtocol | srcTos | tcpFlags | srcMask | dstMask | engineType | engineId => 1
  | l4SrcPort | l4DstPort | inputSnmp | outputSnmp | srcAs | dstAs => 2
  | inBytes | inPackets | ipv4SrcAddr | ipv4DstAddr | ipv4NextHop | lastSwitched
  | firstSwitched => 4

/-- All fields, in the order of their numbers. -/
def all : List Nf9Field :=
  [inBytes, inPackets, inProtocol, srcTos, tcpFlags, l4SrcPort, ipv4SrcAddr, srcMask, inputSnmp,
    l4DstPort, ipv4DstAddr, dstMask, outputSnmp, ipv4NextHop, srcAs, dstAs, lastSwitched,
    firstSwitched, engineType, engineId]

/-- What the field adds to `hdr.fields`. -/
def storeField : Nf9Field → UInt32
  | inBytes => storeFieldOctets
  | inPackets => storeFieldPackets
  | inProtocol | srcTos | tcpFlags => storeFieldProtoFlagsTos
  | l4SrcPort | l4DstPort => storeFieldSrcdstPort
  | ipv4SrcAddr => storeFieldSrcAddr4
  | ipv4DstAddr => storeFieldDstAddr4
  | ipv4NextHop => storeFieldGatewayAddr4
  | inputSnmp | outputSnmp => storeFieldIfIndices
  | srcMask | dstMask | srcAs | dstAs => storeFieldAsInfo
  | lastSwitched | firstSwitched => storeFieldFlowTimes
  | engineType | engineId => storeFieldFlowEngineInfo

end Nf9Field

/-- The records of a template that lists the fields at their natural widths. -/
def templateOf (order : List Nf9Field) : List PeerNf9Record := order.map fun f => ⟨f.type, f.len⟩

/-- The bytes of a field. -/
def FlowRecord.piece (r : FlowRecord) (h : Report) : Nf9Field → List UInt8
  | .inBytes => le32 (htonl r.octets)
  | .inPackets => le32 (htonl r.packets)
  | .inProtocol => [r.protocol]
  | .srcTos => [r.tos]
  | .tcpFlags => [r.tcpFlags]
  | .l4SrcPort => le16 (htons r.srcPort)
  | .ipv4SrcAddr => List.ofFn r.srcIp
  | .srcMask => [r.srcMask]
  | .inputSnmp => le16 (htons r.ifIndexIn)
  | .l4DstPort => le16 (htons r.destPort)
  | .ipv4DstAddr => List.ofFn r.destIp
  | .dstMask => [r.dstMask]
  | .outputSnmp => le16 (htons r.ifIndexOut)
  | .ipv4NextHop => List.ofFn r.nexthopIp
  | .srcAs => le16 (htons r.srcAs)
  | .dstAs => le16 (htons r.destAs)
  | .lastSwitched => le32 (htonl r.finish)
  | .firstSwitched => le32 (htonl r.start)
  | .engineType => [h.engineType]
  | .engineId => [h.engineId]

/-- A field has the length that the template gives it. -/
theorem FlowRecord.length_piece (r : FlowRecord) (h : Report) (f : Nf9Field) :
    (r.piece h f).length = f.len := by
  cases f <;> rfl

/-- The low bytes of a field are overwritten. -/
def lowBytes (w v : ℕ) (data : List UInt8) : ℕ :=
  leNat ((leBytes w v).take (w - data.length) ++ data)

/-- A field that fits is copied to the low bytes of a 16-bit number. -/
theorem beCopy16_eq {data : List UInt8} (h : data.length ≤ 2) (v : UInt16) :
    beCopy16 v data = .ok (UInt16.ofNat (lowBytes 2 v.toNat data)) := by
  rw [beCopy16, beCopy, if_pos h, lowBytes]
  rfl

/-- A field that fits is copied to the low bytes of a 32-bit number. -/
theorem beCopy32_eq {data : List UInt8} (h : data.length ≤ 4) (v : UInt32) :
    beCopy32 v data = .ok (UInt32.ofNat (lowBytes 4 v.toNat data)) := by
  rw [beCopy32, beCopy, if_pos h, lowBytes]
  rfl

/-- A field that fits is copied to the low bytes of a 64-bit number. -/
theorem beCopy64_eq {data : List UInt8} (h : data.length ≤ 8) (v : UInt64) :
    beCopy64 v data = .ok (UInt64.ofNat (lowBytes 8 v.toNat data)) := by
  rw [beCopy64, beCopy, if_pos h, lowBytes]
  rfl

/-- A field that fits is copied to an address. -/
theorem addrCopy_eq {w : ℕ} {data : List UInt8} (h : data.length ≤ w) (a : Xaddr) (af : UInt16) :
    addrCopy w a data af = .ok (a.copy data af) := if_pos h

/-- The record with the value of a field copied into it. -/
def FlowRecord.setValue (r : FlowRecord) (h : Report) (flow : StoreFlowComplete) :
    Nf9Field → StoreFlowComplete
  | .inBytes => { flow with
      flowOctets := UInt64.ofNat (lowBytes 8 flow.flowOctets.toNat (r.piece h .inBytes)) }
  | .inPackets => { flow with
      flowPackets := UInt64.ofNat (lowBytes 8 flow.flowPackets.toNat (r.piece h .inPackets)) }
  | .inProtocol => { flow with protocol := r.protocol }
  | .srcTos => { flow with tos := r.tos }
  | .tcpFlags => { flow with tcpFlags := r.tcpFlags }
  | .l4SrcPort => { flow with srcPort := htons r.srcPort }
  | .ipv4SrcAddr => { flow with srcAddr := flow.srcAddr.copy (List.ofFn r.srcIp) afInet }
  | .srcMask => { flow with srcMask := r.srcMask }
  | .inputSnmp => { flow with
      ifIndexIn := UInt32.ofNat (lowBytes 4 flow.ifIndexIn.toNat (r.piece h .inputSnmp)) }
  | .l4DstPort => { flow with dstPort := htons r.destPort }
  | .ipv4DstAddr => { flow with dstAddr := flow.dstAddr.copy (List.ofFn r.destIp) afInet }
  | .dstMask => { flow with dstMask := r.dstMask }
  | .outputSnmp => { flow with
      ifIndexOut := UInt32.ofNat (lowBytes 4 flow.ifIndexOut.toNat (r.piece h .outputSnmp)) }
  | .ipv4NextHop => { flow with
      gatewayAddr := flow.gatewayAddr.copy (List.ofFn r.nexthopIp) afInet }
  | .srcAs => { flow with
      srcAs := UInt32.ofNat (lowBytes 4 flow.srcAs.toNat (r.piece h .srcAs)) }
  | .dstAs => { flow with
      dstAs := UInt32.ofNat (lowBytes 4 flow.dstAs.toNat (r.piece h .dstAs)) }
  | .lastSwitched => { flow with flowFinish := htonl r.finish }
  | .firstSwitched => { flow with flowStart := htonl r.start }
  | .engineType => { flow with
      engineType := UInt16.ofNat (lowBytes 2 flow.engineType.toNat (r.piece h .engineType)) }
  | .engineId => { flow with
      engineId := UInt16.ofNat (lowBytes 2 flow.engineId.toNat (r.piece h .engineId)) }

/-- The record after a field has been decoded. -/
def FlowRecord.setField (r : FlowRecord) (h : Report) (flow : StoreFlowComplete) (f : Nf9Field) :
    StoreFlowComplete := (r.setValue h flow f).mark f.storeField

/-- The interpreter copies the field. -/
theorem FlowRecord.nf9RecToFlow_piece (r : FlowRecord) (h : Report) (flow : StoreFlowComplete)
    (f : Nf9Field) : nf9RecToFlow f.type flow (r.piece h f) = .ok (r.setField h flow f) := by
  have hlen := r.length_piece h f
  -- the fields in groups, by the function that copies them
  cases f
  case inBytes | inPackets =>
    rw [Nf9Field.type, nf9RecToFlow, beCopy64_eq (hlen.trans_le (by decide)), ok_bind, setField,
      setValue, StoreFlowComplete.mark]
    rfl
  case inputSnmp | outputSnmp | srcAs | dstAs =>
    rw [Nf9Field.type, nf9RecToFlow, beCopy32_eq (hlen.trans_le (by decide)), ok_bind, setField,
      setValue, StoreFlowComplete.mark]
    rfl
  case engineType | engineId =>
    rw [Nf9Field.type, nf9RecToFlow, beCopy16_eq (hlen.trans_le (by decide)), ok_bind, setField,
      setValue, StoreFlowComplete.mark]
    rfl
  case ipv4SrcAddr | ipv4DstAddr | ipv4NextHop =>
    rw [Nf9Field.type, nf9RecToFlow, addrCopy_eq (w := 4) hlen.le, ok_bind, setField,
      setValue, StoreFlowComplete.mark]
    rfl
  case inProtocol | srcTos | tcpFlags | srcMask | dstMask =>
    rw [Nf9Field.type, nf9RecToFlow, piece, beCopy8_singleton, ok_bind, setField,
      setValue, StoreFlowComplete.mark]
    rfl
  case l4SrcPort | l4DstPort =>
    rw [Nf9Field.type, nf9RecToFlow, piece, beCopy16_le16, ok_bind, setField,
      setValue, StoreFlowComplete.mark]
    rfl
  case lastSwitched | firstSwitched =>
    rw [Nf9Field.type, nf9RecToFlow, piece, beCopy32_le32, ok_bind, setField,
      setValue, StoreFlowComplete.mark]
    rfl

namespace FlowRecord

variable (r : FlowRecord) (h : Report)

/-- The order in which two fields are copied does not matter. -/
theorem setField_comm (flow : StoreFlowComplete) (f g : Nf9Field) :
    r.setField h (r.setField h flow f) g = r.setField h (r.setField h flow g) f := by
  have hvalue : ∀ flow : StoreFlowComplete,
      r.setValue h (r.setValue h flow f) g = r.setValue h (r.setValue h flow g) f :=
    fun flow => by cases f <;> cases g <;> simp only [setValue]
  have hmark : ∀ (flow : StoreFlowComplete) (m : UInt32) (k : Nf9Field),
      r.setValue h (flow.mark m) k = (r.setValue h flow k).mark m :=
    fun flow m k => by cases k <;> simp only [setValue, StoreFlowComplete.mark]
  rw [setField, setField, setField, setField, hmark, hmark, hvalue, StoreFlowComplete.mark,
    StoreFlowComplete.mark, StoreFlowComplete.mark, StoreFlowComplete.mark]
  congr 1
  rw [UInt32.or_assoc, UInt32.or_comm f.storeField, ← UInt32.or_assoc]

/-- The bytes of a record whose fields have the order of a template. -/
def pieces (order : List Nf9Field) : List UInt8 := order.flatMap (r.piece h)

/-- The record that is decoded, whatever the order of the template. -/
def stored9 (start : StoreFlowComplete) : StoreFlowComplete :=
  Nf9Field.all.foldl (r.setField h) start

/-- A record with the fields in any order is read back. -/
theorem recordLoop_pieces {order : List Nf9Field} (horder : order.Perm Nf9Field.all)
    (start : StoreFlowComplete) (rest : List UInt8) :
    recordLoop (r.pieces h order ++ rest) (templateOf order) 0 start = .ok (r.stored9 h start) := by
  let field (f : Nf9Field) : PeerNf9Record × List UInt8 := (⟨f.type, f.len⟩, r.piece h f)
  have hlen : ∀ x ∈ order.map field, x.2.length = x.1.len := by
    intro x hx
    obtain ⟨f, -, rfl⟩ := List.mem_map.mp hx
    exact r.length_piece h f
  have hloop := recordLoop_fields hlen [] rest start
  have hbytes : (order.map field).flatMap Prod.snd = r.pieces h order := by
    rw [List.flatMap_map]
    rfl
  have hrecords : (order.map field).map Prod.fst = templateOf order := by
    rw [List.map_map]
    rfl
  -- the fields may be stored in any order, so that of the template does not matter
  have hcopies : ∀ (l : List Nf9Field) (flow : StoreFlowComplete),
      (l.map field).foldlM (fun flow x => nf9RecToFlow x.1.type flow x.2) flow =
        .ok (l.foldl (r.setField h) flow) := by
    intro l
    induction l with
    | nil => exact fun flow => rfl
    | cons f l ih =>
      intro flow
      rw [List.map_cons, List.foldlM_cons, r.nf9RecToFlow_piece, ok_bind, ih, List.foldl_cons]
  rw [hbytes, hrecords, hcopies, List.nil_append, List.length_nil] at hloop
  rw [hloop, stored9, horder.foldl_eq' fun f _ g _ flow => r.setField_comm h flow f g]

/-- The length of a record with all fields. -/
theorem length_pieces {order : List Nf9Field} (horder : order.Perm Nf9Field.all) :
    (r.pieces h order).length = 47 := by
  have hall : (Nf9Field.all.map Nf9Field.len).sum = 47 := by decide
  rw [pieces, List.length_flatMap, ← hall, ← (horder.map Nf9Field.len).sum_eq]
  exact congrArg List.sum (List.map_congr_left fun f _ => r.length_piece h f)

end FlowRecord

/-- The memory of a v9 header. -/
def Nf9Header.bytes (h : Nf9Header) : List UInt8 :=
  le16 h.version ++ (le16 h.flows ++ (le32 h.uptimeMs ++ (le32 h.timeSec ++
    (le32 h.packageSequence ++ le32 h.sourceId))))

/-- A header of version 9 is read back. -/
theorem run_readNf9Header (h : Nf9Header) (bs : List UInt8) :
    readNf9Header.run (h.bytes ++ bs) = (h, bs) := by
  simp only [readNf9Header, Nf9Header.bytes, List.append_assoc, StateT.run_bind, StateT.run_pure,
    run_read16, run_read32, pure_bind]
  rfl

namespace Report

variable (h : Report) (rs : List FlowRecord)

/-- The body of the data flowset. -/
def body9 (order : List Nf9Field) (padding : List UInt8) : List UInt8 :=
  rs.flatMap (fun r => r.pieces h order) ++ padding

/-- The datagram in NetFlow v9: a data flowset for a template with the fields in some order. -/
def datagram9 (templateId : UInt16) (order : List Nf9Field) (padding : List UInt8) : List UInt8 :=
  (h.nf9 rs.length).bytes ++ (le16 (htons templateId) ++
    (le16 (htons (UInt16.ofNat (4 + (h.body9 rs order padding).length))) ++
      h.body9 rs order padding))

/-- What the decoder of v9 knows of the template. -/
structure Knows (peer : PeerState) (templateId : UInt16) (order : List Nf9Field) : Prop where
  data_id : nf9MinRecordFlowsetId ≤ templateId
  order_perm : order.Perm Nf9Field.all
  found : peer.findTemplate h.sourceId templateId =
    some { templateId := templateId, records := some (templateOf order), totalLen := 47 }

variable {h rs}

/-- The flows of a datagram of version 9 whose template is known. -/
theorem processNetflowV9_datagram9 (mem : Memory) (limits : PeerLimits) {fuel : ℕ}
    (hfuel : 0 < fuel) (fp : FlowPacket) {templateId : UInt16} {order : List Nf9Field}
    {padding : List UInt8} (hfp : fp.packet = h.datagram9 rs templateId order padding)
    {peer : PeerState} (hknows : h.Knows peer templateId order) (hpos : 0 < rs.length)
    (hmax : rs.length ≤ 24) (hpadding : padding.length < 47) :
    processNetflowV9 mem limits fuel fp peer = .ok (peer.update rs.length 9,
      rs.map fun r => r.stored9 h (nf9Start fp peer (h.nf9 rs.length) h.sourceId)) := by
  obtain ⟨fuel, rfl⟩ : ∃ k, fuel = k + 1 := ⟨fuel - 1, by omega⟩
  have hpieces : ∀ r : FlowRecord, (r.pieces h order).length = 47 :=
    fun r => r.length_pieces h hknows.order_perm
  have hbody : (h.body9 rs order padding).length = rs.length * 47 + padding.length := by
    rw [body9, List.length_append, length_flatMap_const hpieces]
  have hheader : (h.nf9 rs.length).bytes.length = 20 := by simp [Nf9Header.bytes]
  have hlen : ¬ fp.packet.length < 20 := by
    rw [hfp, datagram9, List.length_append, hheader]
    omega
  have hread : (readNf9Header.run fp.packet).1 = h.nf9 rs.length := by
    rw [hfp, datagram9, run_readNf9Header]
  have hsource : htonl (h.nf9 rs.length).sourceId = h.sourceId := htonl_htonl _
  have hid : ¬ templateId = 0 ∧ ¬ templateId < nf9MinRecordFlowsetId := by
    refine ⟨fun hzero => ?_, UInt16.not_lt.mpr hknows.data_id⟩
    have hge := hknows.data_id
    rw [hzero] at hge
    exact absurd hge (by decide)
  have hpacket : fp.packet = (h.nf9 rs.length).bytes ++ (le16 (htons templateId) ++
      (le16 (htons (UInt16.ofNat (4 + (h.body9 rs order padding).length))) ++
        (h.body9 rs order padding ++ []))) := by
    rw [hfp, datagram9, List.append_nil]
  -- there is one data flowset, and it is decoded whatever stands in memory behind it
  have hflowset : ∀ rest, processFlowset limits fp (h.nf9 rs.length) h.sourceId templateId
      (le16 (htons templateId) ++
        (le16 (htons (UInt16.ofNat (4 + (h.body9 rs order padding).length))) ++
          (h.body9 rs order padding ++ rest))) (4 + (h.body9 rs order padding).length) peer =
      .ok { peer := peer
            flows := rs.map fun r => r.stored9 h (nf9Start fp peer (h.nf9 rs.length) h.sourceId)
            proceed := true } := by
    intro rest
    rw [processFlowset, if_neg hid.1, if_neg hid.2]
    refine processNetflowV9Data_flatMap hknows.found rfl (fun r _ => hpieces r)
      (fun r _ rest => r.recordLoop_pieces h hknows.order_perm _ rest) ?_ hpadding hpos (by omega)
      rest
    rw [hbody]
  have hloop := flowsetLoop_flowset mem fuel { peer := peer, proceed := true } hpacket
    (by rw [UInt16.toNat_ofNat', Nat.mod_eq_of_lt (by omega)]) hflowset rfl
  rw [if_pos rfl, hheader] at hloop
  rw [processNetflowV9, if_neg hlen]
  simp only [hread, hsource, hloop, ok_bind, List.nil_append, List.length_map]
  rw [if_pos ⟨trivial, hpos⟩]
  rfl

end Report

end Flowd
