import NetworkMonitoring.Flowd.Formats

/-!
# flowd — the four decoders

The records the decoders of NetFlow v1, v5, v7 and v9 make of one report are the same wherever two
of the formats have a field, with two exceptions. The v1 decoder takes the microseconds of the
receive time from a variable that is never assigned, and the v5 decoder stores the engine in the
order of the host, where `BE_COPY` stores it in network byte order.

## Main result

* `Report.decodersAgree_iff`: when the records agree.
-/

namespace Flowd

open Bytes

/-! ## Fields in several formats -/

namespace StoreFlowComplete

/-- The fields all formats have. -/
def common (s : StoreFlowComplete) :=
  (s.recvSec, s.recvUsec, s.agentAddr, s.srcAddr, s.dstAddr, s.gatewayAddr, s.srcPort, s.dstPort,
    s.tcpFlags, s.protocol, s.tos, s.flowPackets, s.flowOctets, s.ifIndexIn, s.ifIndexOut,
    s.sysUptimeMs, s.timeSec, s.flowStart, s.flowFinish)

/-- The fields that v5, v7 and v9 have besides. -/
def routing (s : StoreFlowComplete) := (s.srcAs, s.dstAs, s.srcMask, s.dstMask, s.flowSequence)

/-- The fields that v5 and v9 have besides. -/
def engine (s : StoreFlowComplete) := (s.engineType, s.engineId)

end StoreFlowComplete

/-- The records agree on every field that two of the formats have. -/
structure SameMeaning (s1 s5 s7 s9 : StoreFlowComplete) : Prop where
  common5 : s1.common = s5.common
  common7 : s5.common = s7.common
  common9 : s7.common = s9.common
  nanosec5 : s1.timeNanosec = s5.timeNanosec
  nanosec7 : s5.timeNanosec = s7.timeNanosec
  routing7 : s5.routing = s7.routing
  routing9 : s7.routing = s9.routing
  engine9 : s5.engine = s9.engine

/-! ## Widths and byte orders -/

/-- A 32-bit counter in a 64-bit field. -/
theorem lowBytes_le32 (x : UInt32) :
    UInt64.ofNat (lowBytes 8 (0 : UInt64).toNat (le32 x)) = storeHtonll (htonl x).toUInt64 := by
  have hwiden : UInt64.ofNat (lowBytes 8 (0 : UInt64).toNat (le32 x)) = widen x := by
    rw [lowBytes, length_le32, widen]
    rfl
  have hvalue : htonll (widen x) = (htonl x).toUInt64 := by
    rw [← UInt64.toNat_inj, toNat_htonll_widen, UInt32.toNat_toUInt64]
  rw [hwiden, ← hvalue, storeHtonll, htonll_htonll]

/-- A 16-bit number in a 32-bit field. -/
theorem lowBytes_le16 (v : UInt16) :
    UInt32.ofNat (lowBytes 4 (0 : UInt32).toNat (le16 (htons v))) = htonl v.toUInt32 := by
  have hv : v.toNat < 65536 := v.toNat_lt
  rw [← UInt32.toNat_inj, toNat_htonl, lowBytes, length_le16, le16, toNat_htons,
    leBytes_swapBytes, UInt16.toNat_toUInt32, UInt32.toNat_ofNat', UInt32.toNat_zero]
  simp only [swapBytes, leBytes, leNat, List.reverse_cons, List.reverse_nil, List.nil_append,
    List.cons_append, List.take_succ_cons, List.take_zero, UInt8.toNat_ofNat']
  have hhigh : v.toNat / 256 / 256 = 0 := by omega
  rw [hhigh]
  omega

/-- A byte in a 16-bit field. -/
theorem lowBytes_singleton (b : UInt8) :
    UInt16.ofNat (lowBytes 2 (0 : UInt16).toNat [b]) = htons b.toUInt16 := by
  have hb : b.toNat < 256 := b.toNat_lt
  rw [← UInt16.toNat_inj, toNat_htons, lowBytes, UInt8.toNat_toUInt16, UInt16.toNat_ofNat',
    UInt16.toNat_zero, List.length_singleton]
  simp only [swapBytes, leBytes, leNat, List.reverse_cons, List.reverse_nil, List.nil_append,
    List.cons_append, List.take_succ_cons, List.take_zero, UInt8.toNat_ofNat']
  omega

/-- A byte in a 16-bit field has the same value in both byte orders only when it is 0. -/
theorem toUInt16_eq_htons_iff (b : UInt8) : b.toUInt16 = htons b.toUInt16 ↔ b = 0 := by
  have hb : b.toNat < 256 := b.toNat_lt
  rw [eq_comm, htons_eq_self_iff, UInt8.toNat_toUInt16, ← UInt8.toNat_inj, UInt8.toNat_zero]
  omega

/-! ## What each decoder stores -/

namespace FlowRecord

variable (r : FlowRecord) (h : Report)

/-- The common fields of a record, whatever format it came in. -/
def common (recvSec recvUsec : ℤ) (agent : Xaddr) :=
  (UInt32.ofInt recvSec, UInt32.ofInt recvUsec, agent,
    Xaddr.copy {} (List.ofFn r.srcIp) afInet, Xaddr.copy {} (List.ofFn r.destIp) afInet,
    Xaddr.copy {} (List.ofFn r.nexthopIp) afInet, htons r.srcPort, htons r.destPort,
    r.tcpFlags, r.protocol, r.tos, storeHtonll r.packets.toUInt64, storeHtonll r.octets.toUInt64,
    htonl r.ifIndexIn.toUInt32, htonl r.ifIndexOut.toUInt32,
    htonl h.uptimeMs, htonl h.timeSec, htonl r.start, htonl r.finish)

/-- The fields of a record that v5, v7 and v9 have besides. -/
def routing :=
  (htonl r.srcAs.toUInt32, htonl r.destAs.toUInt32, r.srcMask, r.dstMask, htonl h.flowSequence)

theorem common_nf1 (tvUsec : ℤ) (fp : FlowPacket) (n : ℕ) :
    (Nf1Flow.toStore tvUsec fp (h.nf1 n) r.nf1).common =
      r.common h fp.recvSec tvUsec fp.flowSource := by
  simp only [StoreFlowComplete.common, Nf1Flow.toStore, nf1, Report.nf1, common, htons_htons,
    htonl_htonl]

theorem common_nf5 (fp : FlowPacket) (n : ℕ) :
    (Nf5Flow.toStore fp (h.nf5 n) r.nf5).common =
      r.common h fp.recvSec fp.recvUsec fp.flowSource := by
  simp only [StoreFlowComplete.common, Nf5Flow.toStore, nf5, Report.nf5, common, htons_htons,
    htonl_htonl]

theorem common_nf7 (fp : FlowPacket) (n : ℕ) :
    (Nf7Flow.toStore fp (h.nf7 n) r.nf7).common =
      r.common h fp.recvSec fp.recvUsec fp.flowSource := by
  simp only [StoreFlowComplete.common, Nf7Flow.toStore, nf7, Report.nf7, common, htons_htons,
    htonl_htonl]

theorem routing_nf5 (fp : FlowPacket) (n : ℕ) :
    (Nf5Flow.toStore fp (h.nf5 n) r.nf5).routing = r.routing h := rfl

theorem routing_nf7 (fp : FlowPacket) (n : ℕ) :
    (Nf7Flow.toStore fp (h.nf7 n) r.nf7).routing = r.routing h := by
  simp only [StoreFlowComplete.routing, Nf7Flow.toStore, nf7, Report.nf7, routing, htons_htons]

section NetFlow9

variable (fp : FlowPacket) (peer : PeerState) (n : ℕ)

theorem common_nf9 :
    (r.stored9 h (nf9Start fp peer (h.nf9 n) h.sourceId)).common =
      r.common h fp.recvSec fp.recvUsec peer.origin := by
  simp only [StoreFlowComplete.common, stored9, Nf9Field.all, List.foldl, setField, setValue,
    StoreFlowComplete.mark, nf9Start, Report.nf9, piece, lowBytes_le32, lowBytes_le16, htonl_htonl,
    common]

theorem routing_nf9 :
    (r.stored9 h (nf9Start fp peer (h.nf9 n) h.sourceId)).routing = r.routing h := by
  simp only [StoreFlowComplete.routing, stored9, Nf9Field.all, List.foldl, setField, setValue,
    StoreFlowComplete.mark, nf9Start, Report.nf9, piece, lowBytes_le16, routing]

/-- The engine is stored in network byte order. -/
theorem engine_nf9 :
    (r.stored9 h (nf9Start fp peer (h.nf9 n) h.sourceId)).engine =
      (htons h.engineType.toUInt16, htons h.engineId.toUInt16) := by
  simp only [StoreFlowComplete.engine, stored9, Nf9Field.all, List.foldl, setField, setValue,
    StoreFlowComplete.mark, nf9Start, piece, lowBytes_singleton]

end NetFlow9

/-- The records of the four decoders agree exactly when the variable `tv` of `process_netflow_v1`
holds the microseconds the datagram was received at, and the engine is 0. -/
theorem sameMeaning_iff (tvUsec : ℤ) (n : ℕ) (fp1 fp5 fp7 fp9 : FlowPacket)
    {peer : PeerState}
    (hsec : fp5.recvSec = fp1.recvSec ∧ fp7.recvSec = fp1.recvSec ∧ fp9.recvSec = fp1.recvSec)
    (husec : fp7.recvUsec = fp5.recvUsec ∧ fp9.recvUsec = fp5.recvUsec)
    (hsource : fp5.flowSource = fp1.flowSource ∧ fp7.flowSource = fp1.flowSource ∧
      peer.origin = fp1.flowSource) :
    SameMeaning (Nf1Flow.toStore tvUsec fp1 (h.nf1 n) r.nf1) (Nf5Flow.toStore fp5 (h.nf5 n) r.nf5)
        (Nf7Flow.toStore fp7 (h.nf7 n) r.nf7)
        (r.stored9 h (nf9Start fp9 peer (h.nf9 n) h.sourceId)) ↔
      UInt32.ofInt tvUsec = UInt32.ofInt fp5.recvUsec ∧ h.engineType = 0 ∧ h.engineId = 0 := by
  obtain ⟨hs5, hs7, hs9⟩ := hsec
  obtain ⟨hu7, hu9⟩ := husec
  obtain ⟨ha5, ha7, ha9⟩ := hsource
  constructor
  · intro hsame
    -- versions 1 and 5 differ in the microseconds, versions 5 and 9 in the byte order of the engine
    have husec := congrArg (fun c => c.2.1) hsame.common5
    have hengine := hsame.engine9
    rw [common_nf1, common_nf5] at husec
    rw [engine_nf9] at hengine
    refine ⟨husec, ?_, ?_⟩
    · exact (toUInt16_eq_htons_iff _).mp (congrArg Prod.fst hengine)
    · exact (toUInt16_eq_htons_iff _).mp (congrArg Prod.snd hengine)
  · rintro ⟨husec, htype, hid⟩
    have hengine : h.engineType.toUInt16 = htons h.engineType.toUInt16 ∧
        h.engineId.toUInt16 = htons h.engineId.toUInt16 :=
      ⟨(toUInt16_eq_htons_iff _).mpr htype, (toUInt16_eq_htons_iff _).mpr hid⟩
    refine
      { common5 := ?common5, common7 := ?common7, common9 := ?common9, nanosec5 := rfl
        nanosec7 := rfl, routing7 := ?routing7, routing9 := ?routing9, engine9 := ?engine9 }
    case common5 => rw [common_nf1, common_nf5, common, common, husec, hs5, ha5]
    case common7 => rw [common_nf5, common_nf7, hs5, hs7, hu7, ha5, ha7]
    case common9 => rw [common_nf7, common_nf9, hs7, hs9, hu7, hu9, ha7, ha9]
    case routing7 => rw [routing_nf5, routing_nf7]
    case routing9 => rw [routing_nf7, routing_nf9]
    case engine9 =>
      rw [engine_nf9, ← hengine.1, ← hengine.2]
      rfl

end FlowRecord

namespace Report

variable (h : Report) (rs : List FlowRecord)

/-- The records the decoders hand to `process_flow` when a report arrives in each of the formats
agree one by one. -/
def DecodersAgree (tvUsec : ℤ) (mem : Memory) (limits : PeerLimits) (fuel : ℕ) (fp : FlowPacket)
    (peer : PeerState) (templateId : UInt16) (order : List Nf9Field) (padding : List UInt8) :
    Prop :=
  ∃ s1 s5 s7 s9 : FlowRecord → StoreFlowComplete,
    (processNetflowV1 tvUsec { fp with packet := h.datagram1 rs } peer).2 = rs.map s1 ∧
    (processNetflowV5 { fp with packet := h.datagram5 rs } peer).2 = rs.map s5 ∧
    (processNetflowV7 { fp with packet := h.datagram7 rs } peer).2 = rs.map s7 ∧
    (processNetflowV9 mem limits fuel
      { fp with packet := h.datagram9 rs templateId order padding } peer).map Prod.snd =
        .ok (rs.map s9) ∧
    ∀ r ∈ rs, SameMeaning (s1 r) (s5 r) (s7 r) (s9 r)

variable {h rs}

/-- Whether the decoders agree is a matter of the single records. -/
theorem decodersAgree_iff_forall (tvUsec : ℤ) (mem : Memory) (limits : PeerLimits) {fuel : ℕ}
    (hfuel : 0 < fuel) (fp : FlowPacket) {peer : PeerState} {templateId : UInt16}
    {order : List Nf9Field} {padding : List UInt8} (hknows : h.Knows peer templateId order)
    (hpos : 0 < rs.length) (hmax : rs.length ≤ nf1MaxFlows) (hpadding : padding.length < 47) :
    h.DecodersAgree rs tvUsec mem limits fuel fp peer templateId order padding ↔
      ∀ r ∈ rs, SameMeaning
        (Nf1Flow.toStore tvUsec { fp with packet := h.datagram1 rs } (h.nf1 rs.length) r.nf1)
        (Nf5Flow.toStore { fp with packet := h.datagram5 rs } (h.nf5 rs.length) r.nf5)
        (Nf7Flow.toStore { fp with packet := h.datagram7 rs } (h.nf7 rs.length) r.nf7)
        (r.stored9 h (nf9Start { fp with packet := h.datagram9 rs templateId order padding } peer
          (h.nf9 rs.length) h.sourceId)) := by
  have hmax' : rs.length ≤ 24 := hmax
  have h1 := h.processNetflowV1_datagram1 rs tvUsec
    { fp with packet := h.datagram1 rs } rfl hpos hmax peer
  have h5 := h.processNetflowV5_datagram5 rs { fp with packet := h.datagram5 rs } rfl hpos
    (hmax'.trans (by decide)) peer
  have h7 := h.processNetflowV7_datagram7 rs { fp with packet := h.datagram7 rs } rfl hpos
    (hmax'.trans (by decide)) peer
  have h9 := congrArg (Except.map Prod.snd) (processNetflowV9_datagram9 mem limits hfuel
    { fp with packet := h.datagram9 rs templateId order padding } rfl hknows hpos hmax'
    hpadding)
  constructor
  -- the results of the four decoders are the lists of the single records
  · rintro ⟨s1, s5, s7, s9, e1, e5, e7, e9, hsame⟩ r hr
    rw [h1, List.map_inj_left] at e1
    rw [h5, List.map_inj_left] at e5
    rw [h7, List.map_inj_left] at e7
    rw [h9] at e9
    have e9' := List.map_inj_left.mp (Except.ok.inj e9)
    rw [e1 r hr, e5 r hr, e7 r hr, e9' r hr]
    exact hsame r hr
  · intro hsame
    exact ⟨_, _, _, _, h1, h5, h7, h9, hsame⟩

/-- A report that arrives from one agent at one time in the four formats gives the same records
exactly when the microseconds that `process_netflow_v1` takes from its unassigned variable are
those of the receive time, and the engine is 0. -/
theorem decodersAgree_iff (h : Report) {rs : List FlowRecord} (hpos : 0 < rs.length)
    (hmax : rs.length ≤ nf1MaxFlows) (tvUsec : ℤ) (mem : Memory) (limits : PeerLimits) {fuel : ℕ}
    (hfuel : 0 < fuel) (fp : FlowPacket) {peer : PeerState} (hpeer : peer.origin = fp.flowSource)
    {templateId : UInt16} {order : List Nf9Field} (hknows : h.Knows peer templateId order)
    {padding : List UInt8} (hpadding : padding.length < 47) :
    h.DecodersAgree rs tvUsec mem limits fuel fp peer templateId order padding ↔
      UInt32.ofInt tvUsec = UInt32.ofInt fp.recvUsec ∧ h.engineType = 0 ∧ h.engineId = 0 := by
  have hone : ∀ r : FlowRecord, SameMeaning _ _ _ _ ↔ _ := fun r =>
    r.sameMeaning_iff h tvUsec rs.length { fp with packet := h.datagram1 rs }
      { fp with packet := h.datagram5 rs } { fp with packet := h.datagram7 rs }
      { fp with packet := h.datagram9 rs templateId order padding } ⟨rfl, rfl, rfl⟩
      ⟨rfl, rfl⟩ ⟨rfl, rfl, hpeer⟩
  rw [decodersAgree_iff_forall tvUsec mem limits hfuel fp hknows hpos hmax hpadding]
  constructor
  · intro hall
    obtain ⟨r, hr⟩ := List.exists_mem_of_length_pos hpos
    exact (hone r).mp (hall r hr)
  · intro hcond r _
    exact (hone r).mpr hcond

/-- A report whose header names an engine. -/
def ofEngine (engineType : UInt8) : Report where
  uptimeMs := 60000
  timeSec := 1000
  timeNanosec := 0
  flowSequence := 7
  engineType := engineType
  engineId := 0
  sourceId := 0
  spare1 := (readNf1Header.run []).1
  spare5 := (readNf5Header.run []).1
  spare7 := (readNf7Header.run []).1

/-- A flow of one packet. -/
def webFlow : FlowRecord where
  srcIp := ![10, 0, 0, 1]
  destIp := ![10, 0, 0, 2]
  nexthopIp := ![10, 0, 0, 254]
  srcPort := 40000
  destPort := 80
  protocol := 6
  tos := 0
  tcpFlags := 2
  packets := 1
  octets := 60
  ifIndexIn := 1
  ifIndexOut := 2
  start := 50000
  finish := 50000
  srcAs := 65001
  destAs := 65002
  srcMask := 24
  dstMask := 24
  spare1 := (readNf1Flow.run []).1
  spare5 := (readNf5Flow.run []).1
  spare7 := (readNf7Flow.run []).1

/-- A peer that has sent the template. -/
def templatePeer : PeerState where
  nf9 := [{ sourceId := 0, numTemplates := 1,
            templates := [⟨256, some (templateOf Nf9Field.all), 47⟩] }]
  nf9NumSources := 1

theorem ofEngine_knows (engineType : UInt8) :
    (ofEngine engineType).Knows templatePeer 256 Nf9Field.all :=
  ⟨by decide, .refl _, rfl⟩

/-- The four decoders agree on a report of the engine 0. -/
theorem decodersAgree_engine_zero :
    (ofEngine 0).DecodersAgree [webFlow] 0 .checked {} 1 { packet := [] } templatePeer 256
      Nf9Field.all [] :=
  (decodersAgree_iff (ofEngine 0) (by decide) (by decide) 0 _ _ (by decide) { packet := [] } rfl
    (ofEngine_knows 0) (by decide)).mpr ⟨rfl, rfl, rfl⟩

/-- They do not agree on a report of the engine 1, whatever `tv` holds. -/
theorem not_decodersAgree_engine_one :
    (ofEngine 1).Knows templatePeer 256 Nf9Field.all ∧
      ¬ ∃ tvUsec : ℤ, (ofEngine 1).DecodersAgree [webFlow] tvUsec .checked {} 1
        { packet := [] } templatePeer 256 Nf9Field.all [] := by
  refine ⟨ofEngine_knows 1, ?_⟩
  rintro ⟨tvUsec, hagree⟩
  have hsame := (decodersAgree_iff_forall tvUsec _ _ (by decide) { packet := [] }
    (ofEngine_knows 1) (by decide) (by decide) (by decide)).mp hagree webFlow
    List.mem_cons_self
  have hengine := congrArg Prod.fst hsame.engine9
  rw [webFlow.engine_nf9] at hengine
  exact absurd ((toUInt16_eq_htons_iff _).mp hengine) (by decide)

end Report

end Flowd
