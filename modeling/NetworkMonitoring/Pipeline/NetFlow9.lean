import NetworkMonitoring.Flowd.NetFlow9Decode
import NetworkMonitoring.Pipeline.Report
import NetworkMonitoring.Softflowd.NetFlow9Export

/-!
# From the NetFlow v9 exporter to the collector

The template of `softflowd` lists the fields of its data records, and `flowd` interprets the data
by the template. The template names the two time stamps in the opposite order of the structure it
describes, so the collector stores each of them in the place of the other.

## Main results

* `recordLoop_nf9Data`: what the collector stores for one record;
* `processNetflowV9_bytes`: a datagram of the exporter is taken whole;
* `nf9RoundTrip_iff`: a call is stored faithfully exactly when each of its flows starts and ends in
  the same millisecond;
* `nf9RoundTrip_swapped`: a flow of two seconds.
-/

namespace Pipeline

open Bytes Flowd Softflowd

/-! ## Templates -/

/-- The fields of the records of one family, as the template lists them. -/
def templateFields (srcType dstType addrLen : UInt16) : List (UInt16 × UInt16) :=
  [(srcType, addrLen), (dstType, addrLen), (21, 4), (22, 4), (1, 4), (2, 4), (7, 2), (11, 2),
    (4, 1), (6, 1), (60, 1)]

/-- The fields of the records of a family. -/
def familyFields : Nf9Family → List (UInt16 × UInt16)
  | .v4 => templateFields 8 12 4
  | .v6 => templateFields 27 28 16

/-- The template of a family. -/
def familyTemplate : Nf9Family → Nf9Template
  | .v4 => Softflowd.v4Template
  | .v6 => Softflowd.v6Template

theorem familyTemplate_bytes (fam : Nf9Family) :
    (familyTemplate fam).bytes = le16 (htons 0) ++ (le16 (htons 52) ++
      (le16 (htons fam.templateId) ++ (le16 (htons 11) ++ templateWords (familyFields fam)))) := by
  cases fam <;> rfl

/-- The collector accepts every field of a template. -/
theorem nf9CheckRecLen_familyFields (fam : Nf9Family) :
    ∀ r ∈ familyFields fam, nf9CheckRecLen r.1.toNat r.2.toNat = true := by
  cases fam <;> simp [familyFields, templateFields, nf9CheckRecLen, nf9FieldLen]

/-- The template of a family as the collector keeps it. -/
def storedTemplate (fam : Nf9Family) : PeerNf9Template where
  templateId := fam.templateId
  records := some (keptRecords (familyFields fam))
  totalLen := fam.recordLen

/-- The collector knows both templates of the exporter. -/
def KnowsTemplates (peer : PeerState) : Prop :=
  peer.nf9 = [{ sourceId := 0, numTemplates := 2
                templates := [storedTemplate .v6, storedTemplate .v4] }]

/-- The collector knows no template. -/
def KnowsNothing (peer : PeerState) : Prop := peer.nf9 = [] ∧ peer.nf9NumSources = 0

theorem KnowsTemplates.findTemplate {peer : PeerState} (h : KnowsTemplates peer)
    (fam : Nf9Family) : peer.findTemplate 0 fam.templateId = some (storedTemplate fam) := by
  rw [PeerState.findTemplate, PeerState.lookupSource, h]
  cases fam <;> rfl

/-- Registering the two templates of a datagram. -/
theorem register_templates {peer : PeerState} (h : KnowsNothing peer ∨ KnowsTemplates peer) :
    ∃ peer₁ peer₂,
      peer.register {} 0 (Nf9Family.v4.templateId) (keptRecords (familyFields .v4))
        (recordsLen (familyFields .v4)) = .ok peer₁ ∧
      peer₁.register {} 0 (Nf9Family.v6.templateId) (keptRecords (familyFields .v6))
        (recordsLen (familyFields .v6)) = .ok peer₂ ∧ KnowsTemplates peer₂ := by
  obtain ⟨origin, npackets, nflows, ninvalid, noTemplate, lastVersion, nf9, num⟩ := peer
  rcases h with ⟨hnf9, hnum⟩ | hnf9
  · obtain rfl : nf9 = [] := hnf9
    obtain rfl : num = 0 := hnum
    exact ⟨_, _, rfl, rfl, rfl⟩
  · obtain rfl : nf9 = _ := hnf9
    exact ⟨_, _, rfl, rfl, rfl⟩

/-! ## One record -/

/-- The fields of the common part of a record, in the order of the structure. -/
def commonPieces (c : Nf9DataCommon) : List (List UInt8) :=
  [le32 c.firstSwitched, le32 c.lastSwitched, le32 c.bytes, le32 c.packets, le16 c.srcPort,
    le16 c.dstPort, [c.protocol], [c.tcpFlags], [c.ipproto]]

/-- The fields of a record, in the order of the structure. -/
def pieces : Nf9Data → List (List UInt8)
  | .v4 src dst c => List.ofFn src :: List.ofFn dst :: commonPieces c
  | .v6 src dst c => List.ofFn src :: List.ofFn dst :: commonPieces c

/-- The fields of a record with what the template says about them. -/
def namedPieces (r : Nf9Data) : List (PeerNf9Record × List UInt8) :=
  (keptRecords (familyFields r.family)).zip (pieces r)

theorem map_fst_namedPieces (r : Nf9Data) :
    (namedPieces r).map Prod.fst = keptRecords (familyFields r.family) := by
  cases r <;> rfl

theorem flatMap_snd_namedPieces (r : Nf9Data) :
    (namedPieces r).flatMap Prod.snd = r.memory := by
  have hsnd : (namedPieces r).map Prod.snd = pieces r := by cases r <;> rfl
  rw [List.flatMap_def, hsnd]
  cases r <;> simp [pieces, commonPieces, Nf9Data.memory, Nf9DataCommon.memory, -List.ofFn_succ]

/-- Template and structure agree on the widths of the fields. -/
theorem length_namedPieces (r : Nf9Data) : ∀ x ∈ namedPieces r, x.2.length = x.1.len := by
  cases r <;>
    simp [namedPieces, keptRecords, familyFields, templateFields, Nf9Data.family, pieces,
      commonPieces, -List.ofFn_succ]

/-- What the collector stores for the common part: the first time stamp of the structure is taken
for the last one. -/
def storedCommon (flow : StoreFlowComplete) (c : Nf9DataCommon) : StoreFlowComplete :=
  { flow with
    fields := flow.fields ||| storeFieldFlowTimes ||| storeFieldFlowTimes ||| storeFieldOctets |||
      storeFieldPackets ||| storeFieldSrcdstPort ||| storeFieldSrcdstPort |||
      storeFieldProtoFlagsTos ||| storeFieldProtoFlagsTos
    flowFinish := c.firstSwitched
    flowStart := c.lastSwitched
    flowOctets := widen c.bytes
    flowPackets := widen c.packets
    srcPort := c.srcPort
    dstPort := c.dstPort
    protocol := c.protocol
    tcpFlags := c.tcpFlags }

/-- What the collector stores for a record. -/
def storedData (flow : StoreFlowComplete) : Nf9Data → StoreFlowComplete
  | .v4 src dst c => storedCommon { flow with
      fields := flow.fields ||| storeFieldSrcAddr4 ||| storeFieldDstAddr4
      srcAddr := flow.srcAddr.copy (List.ofFn src) Flowd.afInet
      dstAddr := flow.dstAddr.copy (List.ofFn dst) Flowd.afInet } c
  | .v6 src dst c => storedCommon { flow with
      fields := flow.fields ||| storeFieldSrcAddr6 ||| storeFieldDstAddr6
      srcAddr := flow.srcAddr.copy (List.ofFn src) Flowd.afInet6
      dstAddr := flow.dstAddr.copy (List.ofFn dst) Flowd.afInet6 } c

theorem addrCopy_ofFn {w : ℕ} (x : Fin w → UInt8) (a : Xaddr) (af : UInt16) :
    addrCopy w a (List.ofFn x) af = .ok (a.copy (List.ofFn x) af) :=
  if_pos (List.length_ofFn).le

/-- The collector's interpreter on the common part of a record. -/
theorem foldlM_commonPieces (flow : StoreFlowComplete) (c : Nf9DataCommon)
    (hoctets : flow.flowOctets = 0) (hpackets : flow.flowPackets = 0) :
    ((keptRecords ((templateFields 0 0 0).drop 2)).zip (commonPieces c)).foldlM
        (fun flow x => nf9RecToFlow x.1.type flow x.2) flow = .ok (storedCommon flow c) := by
  obtain ⟨⟩ := flow
  obtain rfl := hoctets
  obtain rfl := hpackets
  simp only [templateFields, List.drop_succ_cons, List.drop_zero, keptRecords, List.map_cons,
    List.map_nil, commonPieces, List.zip_cons_cons, List.zip_nil_right, List.foldlM_cons,
    List.foldlM_nil, UInt16.reduceToNat, nf9RecToFlow, beCopy32_le32, beCopy64_le32,
    beCopy16_le16, beCopy8_singleton, StoreFlowComplete.mark, ErrorLoops.ok_bind, pure_bind,
    storedCommon]
  rfl

/-- What the collector stores for one record of the exporter. -/
theorem recordLoop_nf9Data (r : Nf9Data) (flow : StoreFlowComplete) (rest : List UInt8)
    (hoctets : flow.flowOctets = 0) (hpackets : flow.flowPackets = 0) :
    recordLoop (r.memory ++ rest) (keptRecords (familyFields r.family)) 0 flow =
      .ok (storedData flow r) := by
  have h := recordLoop_fields (length_namedPieces r) [] rest flow
  rw [flatMap_snd_namedPieces, map_fst_namedPieces, List.nil_append, List.length_nil] at h
  rw [h]
  cases r with
  | v4 src dst c =>
    have hzip : namedPieces (.v4 src dst c) =
        (⟨8, 4⟩, List.ofFn src) :: (⟨12, 4⟩, List.ofFn dst) ::
          (keptRecords ((templateFields 0 0 0).drop 2)).zip (commonPieces c) := rfl
    rw [hzip]
    simp only [List.foldlM_cons, nf9RecToFlow, addrCopy_ofFn, StoreFlowComplete.mark,
      ErrorLoops.ok_bind, pure_bind]
    exact foldlM_commonPieces _ c hoctets hpackets
  | v6 src dst c =>
    have hzip : namedPieces (.v6 src dst c) =
        (⟨27, 16⟩, List.ofFn src) :: (⟨28, 16⟩, List.ofFn dst) ::
          (keptRecords ((templateFields 0 0 0).drop 2)).zip (commonPieces c) := rfl
    rw [hzip]
    simp only [List.foldlM_cons, nf9RecToFlow, addrCopy_ofFn, StoreFlowComplete.mark,
      ErrorLoops.ok_bind, pure_bind]
    exact foldlM_commonPieces _ c hoctets hpackets

/-- The same report with start and end of the flow exchanged. -/
def swapTimes (r : FlowReport) : FlowReport := { r with start := r.finish, finish := r.start }

/-- What the collector stores about a direction of a flow, with the two times exchanged. -/
theorem report_storedData (f : Flow) (boot : Timeval) (d : Dir) (flow : StoreFlowComplete) :
    (storedData flow (f.nf9Data boot d)).report =
      swapTimes (f.report boot d (f.totals d)) := by
  unfold Flow.nf9Data
  split
  · rename_i haf
    simp [storedData, storedCommon, StoreFlowComplete.report, swapTimes, Flow.report, Flow.address,
      haf, Xaddr.address_copy_v4, Flow.nf9Common, Flow.totals, storeHtonll, toNat_htonll_widen,
      -List.ofFn_succ]
  · rename_i haf
    simp [storedData, storedCommon, StoreFlowComplete.report, swapTimes, Flow.report, Flow.address,
      haf, Xaddr.address_copy_v6, Flow.nf9Common, Flow.totals, storeHtonll, toNat_htonll_widen,
      -List.ofFn_succ]

/-- The record the collector starts from does not matter for the report. -/
theorem report_storedData_start (r : Nf9Data) (a b : StoreFlowComplete) :
    (storedData a r).report = (storedData b r).report := by
  cases r <;>
    simp [storedData, storedCommon, StoreFlowComplete.report, Xaddr.address_copy_v4,
      Xaddr.address_copy_v6, -List.ofFn_succ]

/-! ## One datagram -/

/-- A template flowset registers the template. -/
theorem flowsetLoop_template (mem : Memory) {fp : FlowPacket} (hdr : Flowd.Nf9Header) (fuel : ℕ)
    {pre rest : List UInt8} {fam : Nf9Family} {peer peer' : PeerState}
    (hpacket : fp.packet = pre ++ ((familyTemplate fam).bytes ++ rest)) (hrest : rest ≠ [])
    (hregister : peer.register {} 0 fam.templateId (keptRecords (familyFields fam))
      (recordsLen (familyFields fam)) = .ok peer') :
    flowsetLoop mem {} fp hdr 0 (fuel + 1) pre.length { peer := peer, proceed := true } =
      flowsetLoop mem {} fp hdr 0 fuel (pre.length + 52) { peer := peer', proceed := true } := by
  have hcount : (familyFields fam).length = 11 := by cases fam <;> rfl
  have hsize : recordsLen (familyFields fam) ≤ ({} : PeerLimits).maxTemplateLen := by
    cases fam <;> decide
  have hwords := processNetflowV9Template_words 11 52 52 (by rw [hcount]; rfl) (by rw [hcount])
    (nf9CheckRecLen_familyFields fam) hsize hregister
  set body := le16 (htons fam.templateId) ++ (le16 (htons 11) ++ templateWords (familyFields fam))
    with hbody
  have hlen : body.length = 48 := by
    rw [hbody]
    simp only [List.length_append, length_le16, length_templateWords, hcount]
  have hpacket' : fp.packet = pre ++ (le16 (htons 0) ++ (le16 (htons 52) ++ (body ++ rest))) := by
    rw [hpacket, familyTemplate_bytes, hbody]
    simp only [List.append_assoc]
  -- the flowset registers its template, whatever stands behind it
  have hflowset : ∀ rest, processFlowset {} fp hdr 0 0
      (le16 (htons 0) ++ (le16 (htons 52) ++ (body ++ rest))) (4 + body.length) peer =
        .ok { peer := peer', proceed := true } := by
    intro rest
    rw [processFlowset, if_pos rfl, hlen, hbody]
    simpa only [List.append_assoc] using hwords rest
  have hloop := flowsetLoop_flowset mem fuel { peer := peer, proceed := true } hpacket'
    (by rw [hlen]; rfl) hflowset rfl
  rw [hloop, if_neg hrest, hlen]
  rfl

/-- The data flowsets of a packet are stored in order. -/
theorem flowsetLoop_data (mem : Memory) {fp : FlowPacket} (hdr : Flowd.Nf9Header)
    {peer : PeerState} (hpeer : KnowsTemplates peer) {sets : List DataFlowset} (hsets : sets ≠ [])
    (hwf : ∀ s ∈ sets, s.WellFormed) {fuel : ℕ} (hfuel : sets.length ≤ fuel) (pre : List UInt8)
    (hsize : (dataBytes sets).length < 65536) (hpacket : fp.packet = pre ++ dataBytes sets)
    (flows : List StoreFlowComplete) :
    flowsetLoop mem {} fp hdr 0 fuel pre.length { peer := peer, flows := flows, proceed := true } =
      .ok { peer := peer
            flows := flows ++ (sets.flatMap DataFlowset.records).map
              (storedData (nf9Start fp peer hdr 0))
            proceed := true } := by
  induction sets generalizing fuel pre flows with
  | nil => exact absurd rfl hsets
  | cons s sets ih =>
    obtain ⟨fuel, rfl⟩ : ∃ k, fuel = k + 1 := ⟨fuel - 1, by rw [List.length_cons] at hfuel; omega⟩
    have hs := hwf s List.mem_cons_self
    have hcons : dataBytes (s :: sets) = s.flowset.bytes ++ dataBytes sets := List.flatMap_cons
    rw [hcons, List.length_append] at hsize
    have hbody := length_dataFlowset_bytes s
    have hlength := s.toNat_length (by omega)
    have hrecords := length_recordBytes hs.family
    have hpos : 31 ≤ s.family.recordLen := by cases s.family <;> decide
    have hfew := Nat.mul_le_mul_left s.records.length hpos
    have hid : ¬ s.family.templateId = 0 ∧ ¬ s.family.templateId < nf9MinRecordFlowsetId := by
      cases s.family <;> decide
    have hbodyLen : s.flowset.body.length = (recordBytes s.records).length + s.padding.length :=
      List.length_append
    have hpacket' : fp.packet = pre ++ (le16 (htons s.family.templateId) ++
        (le16 (htons s.flowset.length) ++ (s.flowset.body ++ dataBytes sets))) := by
      rw [hpacket, hcons]
      simp only [Nf9Flowset.bytes, DataFlowset.flowset, List.append_assoc]
    -- one flowset, decoded with the template of its family
    have hflowset : ∀ rest, processFlowset {} fp hdr 0 s.family.templateId
        (le16 (htons s.family.templateId) ++ (le16 (htons s.flowset.length) ++
          (s.flowset.body ++ rest))) (4 + s.flowset.body.length) peer =
        .ok { peer := peer
              flows := s.records.map (storedData (nf9Start fp peer hdr 0))
              proceed := true } := by
      intro rest
      rw [processFlowset, if_neg hid.1, if_neg hid.2]
      refine processNetflowV9Data_flatMap (hpeer.findTemplate s.family) rfl ?_ ?_ ?_ hs.padding
        (List.length_pos_iff.mpr hs.records) (by omega) rest
      · intro r hr
        rw [r.length_memory, hs.family r hr]
        rfl
      · intro r hr rest
        rw [← hs.family r hr]
        exact recordLoop_nf9Data r _ rest rfl rfl
      · rw [hbodyLen, hrecords]
        rfl
    have hloop := flowsetLoop_flowset mem fuel
      { peer := peer, flows := flows, proceed := true } hpacket'
      (by omega) hflowset rfl
    rw [hloop]
    -- the loop ends with the packet, or goes on behind the flowset
    cases sets with
    | nil =>
      have hnil : dataBytes [] = [] := rfl
      rw [if_pos hnil]
      simp
    | cons s' sets =>
      have hne : dataBytes (s' :: sets) ≠ [] := by
        have hlen := length_dataFlowset_bytes s'
        rw [dataBytes, List.flatMap_cons]
        exact List.append_ne_nil_of_left_ne_nil
          (List.length_pos_iff.mp (by rw [hlen]; omega)) _
      have ih' := ih (List.cons_ne_nil s' sets) (fun t ht => hwf t (List.mem_cons_of_mem s ht))
        (Nat.le_of_succ_le_succ hfuel) (pre ++ s.flowset.bytes) (by omega)
        (by rw [hpacket, hcons, List.append_assoc])
        (flows ++ s.records.map (storedData (nf9Start fp peer hdr 0)))
      rw [if_neg hne]
      rw [List.length_append, hbody, ← hbodyLen] at ih'
      rw [List.flatMap_cons, List.map_append, ← List.append_assoc]
      exact ih'

/-- The collector's view of a header. -/
def receivedNf9Header (h : Softflowd.Nf9Header) : Flowd.Nf9Header :=
  { version := h.version, flows := h.flows, uptimeMs := h.uptimeMs, timeSec := h.timeSec
    packageSequence := h.packageSequence, sourceId := h.sourceId }

theorem run_readNf9Header (h : Softflowd.Nf9Header) (bs : List UInt8) :
    readNf9Header.run (h.bytes ++ bs) = (receivedNf9Header h, bs) := by
  simp only [readNf9Header, Softflowd.Nf9Header.bytes, List.append_assoc, StateT.run_bind,
    StateT.run_pure, run_read16, run_read32, pure_bind]
  rfl

/-- A datagram behind its header. -/
theorem bytes_front (d : Nf9Datagram) : ∃ front : List UInt8, front.length = 20 ∧
    d.bytes = front ++ (d.templates.flatMap Nf9Template.bytes ++ dataBytes d.data) := by
  refine ⟨le16 d.hdr.version ++ (le16 d.hdr.flows ++ d.hdr.rest), ?_, ?_⟩
  · simp only [List.length_append, length_le16, Softflowd.Nf9Header.length_rest]
  · rw [d.bytes_eq]
    simp only [List.append_assoc]

theorem data_ne_nil {d : Nf9Datagram} (h : d.WellFormed) : d.data ≠ [] := by
  intro hnil
  have hrecords := h.records
  rw [Nf9Datagram.records, hnil] at hrecords
  exact hrecords rfl

theorem dataBytes_ne_nil {sets : List DataFlowset} (h : sets ≠ []) : dataBytes sets ≠ [] := by
  obtain ⟨s, sets, rfl⟩ := List.exists_cons_of_ne_nil h
  have hlen := length_dataFlowset_bytes s
  rw [dataBytes, List.flatMap_cons]
  exact List.append_ne_nil_of_left_ne_nil (List.length_pos_iff.mp (by rw [hlen]; omega)) _

/-- The flowsets of a datagram with templates are taken in order. -/
theorem flowsetLoop_templates {mem : Memory} {d : Nf9Datagram} (h : d.WellFormed)
    (htemplates : d.templates = [Softflowd.v4Template, Softflowd.v6Template]) {fp : FlowPacket}
    (hfp : fp.packet = d.bytes) (hdr : Flowd.Nf9Header) {peer : PeerState}
    (hpeer : KnowsNothing peer ∨ KnowsTemplates peer) {fuel : ℕ} (hfuel : d.data.length ≤ fuel) :
    ∃ peer', KnowsTemplates peer' ∧
      flowsetLoop mem {} fp hdr 0 (fuel + 2) 20 { peer := peer, proceed := true } =
        .ok { peer := peer'
              flows := d.records.map (storedData (nf9Start fp peer' hdr 0))
              proceed := true } := by
  obtain ⟨peer₁, peer₂, hfirst, hsecond, hknown⟩ := register_templates hpeer
  obtain ⟨front, hfront, hbytes⟩ := bytes_front d
  have hsize : d.bytes.length ≤ 512 := h.size
  have hdata := data_ne_nil h
  have hne := dataBytes_ne_nil hdata
  have hpacket : fp.packet = front ++ ((familyTemplate .v4).bytes ++
      ((familyTemplate .v6).bytes ++ dataBytes d.data)) := by
    rw [hfp, hbytes, htemplates]
    simp only [List.flatMap_cons, List.flatMap_nil, List.append_nil, List.append_assoc]
    rfl
  have hsplit : fp.packet = (front ++ (familyTemplate .v4).bytes) ++
      ((familyTemplate .v6).bytes ++ dataBytes d.data) := by
    rw [hpacket, List.append_assoc]
  have hrest : fp.packet = ((front ++ (familyTemplate .v4).bytes) ++ (familyTemplate .v6).bytes) ++
      dataBytes d.data := by
    rw [hsplit, ← List.append_assoc]
  have hv4 : (familyTemplate .v4).bytes.length = 52 := length_v4Template
  have hv6 : (familyTemplate .v6).bytes.length = 52 := length_v6Template
  have hsmall : (dataBytes d.data).length < 65536 := by
    rw [hbytes, List.length_append, List.length_append] at hsize
    omega
  -- the two templates, and then the data with both of them known
  have hone := flowsetLoop_template mem hdr (fuel + 1) hpacket
    (List.append_ne_nil_of_right_ne_nil _ hne) hfirst
  have htwo := flowsetLoop_template mem hdr fuel hsplit hne hsecond
  have hall := flowsetLoop_data mem hdr hknown hdata h.data hfuel _ hsmall hrest
    []
  rw [hfront] at hone
  simp only [List.length_append, hfront, hv4, hv6] at htwo hall
  refine ⟨peer₂, hknown, ?_⟩
  rw [hone, htwo, hall]
  rfl

/-- The flowsets of a datagram without templates are taken in order. -/
theorem flowsetLoop_noTemplates {mem : Memory} {d : Nf9Datagram} (h : d.WellFormed)
    (htemplates : d.templates = []) {fp : FlowPacket} (hfp : fp.packet = d.bytes)
    (hdr : Flowd.Nf9Header) {peer : PeerState} (hpeer : KnowsTemplates peer) {fuel : ℕ}
    (hfuel : d.data.length ≤ fuel) :
    flowsetLoop mem {} fp hdr 0 fuel 20 { peer := peer, proceed := true } =
      .ok { peer := peer
            flows := d.records.map (storedData (nf9Start fp peer hdr 0))
            proceed := true } := by
  obtain ⟨front, hfront, hbytes⟩ := bytes_front d
  have hsize : d.bytes.length ≤ 512 := h.size
  have hpacket : fp.packet = front ++ dataBytes d.data := by
    rw [hfp, hbytes, htemplates, List.flatMap_nil, List.nil_append]
  have hsmall : (dataBytes d.data).length < 65536 := by
    rw [hbytes, List.length_append, List.length_append] at hsize
    omega
  have hall := flowsetLoop_data mem hdr hpeer (data_ne_nil h) h.data hfuel front
    hsmall hpacket []
  rw [hfront] at hall
  exact hall

/-- A datagram of the exporter is taken whole; the records a collector starts from have no counters
yet. -/
theorem processNetflowV9_bytes (mem : Memory) {d : Nf9Datagram} (h : d.WellFormed)
    (fp : FlowPacket) (hfp : fp.packet = d.bytes) {peer : PeerState}
    (hpeer : (KnowsNothing peer ∧ d.templates = [Softflowd.v4Template, Softflowd.v6Template]) ∨
      KnowsTemplates peer) :
    ∃ peer' start, KnowsTemplates peer' ∧
      processNetflowV9 mem {} fp.packet.length fp peer =
        .ok (peer', d.records.map (storedData start)) := by
  obtain ⟨front, hfront, hbytes⟩ := bytes_front d
  have hlong : ¬ fp.packet.length < 20 := by
    rw [hfp, hbytes, List.length_append]
    omega
  have hhdr : (readNf9Header.run fp.packet).1 = receivedNf9Header d.hdr := by
    rw [hfp, Nf9Datagram.bytes, run_readNf9Header]
  have hsource : htonl (receivedNf9Header d.hdr).sourceId = 0 := by
    have hzero : (receivedNf9Header d.hdr).sourceId = 0 := h.sourceId
    rw [hzero]
    decide
  have hrecords : d.records.length > 0 := List.length_pos_iff.mpr h.records
  -- every flowset takes up at least four bytes, so the length of the packet is enough fuel
  have hfew : 20 + d.data.length ≤ fp.packet.length := by
    have hsets : d.data.length ≤ (dataBytes d.data).length := by
      have hlen := List.length_flatMap (l := d.data) (f := fun s => s.flowset.bytes)
      rw [dataBytes, hlen, ← List.length_map (f := fun s => s.flowset.bytes.length)]
      refine List.length_le_sum_of_one_le _ fun n hn => ?_
      obtain ⟨s, -, rfl⟩ := List.mem_map.mp hn
      rw [length_dataFlowset_bytes]
      omega
    rw [hfp, hbytes, List.length_append, List.length_append]
    omega
  have hloop : ∃ peer', KnowsTemplates peer' ∧
      flowsetLoop mem {} fp (receivedNf9Header d.hdr) 0 fp.packet.length 20
        { peer := peer, proceed := true } =
        .ok { peer := peer'
              flows := d.records.map (storedData (nf9Start fp peer' (receivedNf9Header d.hdr) 0))
              proceed := true } := by
    obtain ⟨fuel, hfuel⟩ : ∃ fuel, fp.packet.length = fuel + 2 :=
      ⟨fp.packet.length - 2, by omega⟩
    rcases h.templates with hnone | hboth
    · have hknown := hpeer.resolve_left fun hnothing => by
        rw [hnone] at hnothing
        exact absurd hnothing.2 (by decide)
      exact ⟨peer, hknown, flowsetLoop_noTemplates h hnone hfp _ hknown (by omega)⟩
    · rw [hfuel]
      exact flowsetLoop_templates h hboth hfp _ (hpeer.imp_left And.left) (by omega)
  obtain ⟨peer', hknown, hloop⟩ := hloop
  refine ⟨peer'.update d.records.length 9, nf9Start fp peer' (receivedNf9Header d.hdr) 0, hknown,
    ?_⟩
  rw [processNetflowV9, if_neg hlong, hhdr]
  simp only [hsource, hloop, ErrorLoops.ok_bind, List.length_map]
  rw [if_pos ⟨trivial, hrecords⟩]
  rfl

/-! ## A whole call -/

/-- The datagrams of a call reach the collector one by one. `recv` gives the time and the source
each of them is received with, `mem` what the heap holds behind it; the length of a datagram is
fuel enough to process it. -/
def collectV9 (mem : List UInt8 → Memory) (recv : List UInt8 → FlowPacket) :
    List (List UInt8) → PeerState → Except Flowd.Fault (PeerState × List StoreFlowComplete)
  | [], peer => .ok (peer, [])
  | d :: ds, peer => do
    let (peer, flows) ← processNetflowV9 (mem d) {} d.length { recv d with packet := d } peer
    let (peer, rest) ← collectV9 mem recv ds peer
    return (peer, flows ++ rest)

/-- What is to be reported about one flow: its directions with a nonzero octet count. -/
def nf9Reports (boot : Timeval) (f : Flow) : List FlowReport :=
  ([0, 1].filter fun d => f.octets d > 0).map fun d => f.report boot d (f.totals d)

/-- What the collector stores for the records of a flow, with the two times exchanged. -/
theorem map_report_nf9Records (boot : Timeval) (f : Flow) (start : StoreFlowComplete) :
    (f.nf9Records boot).map (fun r => (storedData start r).report) =
      (nf9Reports boot f).map swapTimes := by
  rw [Flow.nf9Records, Flow.recordsOf, nf9Reports, List.map_map, List.map_map]
  exact List.map_congr_left fun d _ => report_storedData f boot d start

/-- The datagrams of a call are all taken, once the first one has brought the templates. -/
theorem collectV9_bytes (mem : List UInt8 → Memory) (recv : List UInt8 → FlowPacket)
    {ds : List Nf9Datagram} (hwf : ∀ d ∈ ds, d.WellFormed) {peer : PeerState}
    (hpeer : (KnowsNothing peer ∧
        ∀ d ∈ ds.head?, d.templates = [Softflowd.v4Template, Softflowd.v6Template]) ∨
      KnowsTemplates peer) (boot : Timeval) {flows : List Flow}
    (hrecords : ds.flatMap Nf9Datagram.records = flows.flatMap (·.nf9Records boot)) :
    ∃ peer' stored, collectV9 mem recv (ds.map Nf9Datagram.bytes) peer = .ok (peer', stored) ∧
      stored.map StoreFlowComplete.report = (flows.flatMap (nf9Reports boot)).map swapTimes := by
  suffices h : ∃ peer' stored, collectV9 mem recv (ds.map Nf9Datagram.bytes) peer =
      .ok (peer', stored) ∧ stored.map StoreFlowComplete.report =
        (ds.flatMap Nf9Datagram.records).map fun r => (storedData {} r).report by
    obtain ⟨peer', stored, hcollect, hstored⟩ := h
    refine ⟨peer', stored, hcollect, ?_⟩
    rw [hstored, hrecords, List.map_flatMap, List.map_flatMap]
    exact List.flatMap_congr fun f _ => map_report_nf9Records boot f {}
  clear hrecords
  induction ds generalizing peer with
  | nil => exact ⟨peer, [], rfl, rfl⟩
  | cons d ds ih =>
    have hd := hwf d List.mem_cons_self
    obtain ⟨peer₁, start, hknown, hone⟩ := processNetflowV9_bytes (mem d.bytes) hd
      { recv d.bytes with packet := d.bytes } rfl
      (hpeer.imp_left fun h => ⟨h.1, h.2 d (by simp)⟩)
    -- the later datagrams find both templates, whoever has brought them
    obtain ⟨peer₂, rest, hrest, hstored⟩ :=
      ih (fun e he => hwf e (List.mem_cons_of_mem d he)) (.inr hknown)
    refine ⟨peer₂, d.records.map (storedData start) ++ rest, ?_, ?_⟩
    · rw [List.map_cons, collectV9]
      simp only [hone, hrest, ErrorLoops.ok_bind]
      rfl
    · rw [List.map_append, hstored, List.flatMap_cons, List.map_append, List.map_map]
      congr 1
      exact List.map_congr_left fun r _ => report_storedData_start r start {}

/-- A call from the initial state, and what the collector makes of its datagrams. -/
theorem nf9Collected (ex : Exporter) (hex : ex.nf9 = {}) (hsend : ∀ k, ex.net.sendFails k = false)
    (flows : List Flow) (hflows : ∀ f ∈ flows, f.Exportable) (fuel : ℕ)
    (hfuel : flows.length ≤ fuel) (now : Timeval) (time : ℕ → ℤ) (exported : UInt64)
    (boot : Timeval) (inOut : ℤ) (mem : List UInt8 → Memory) (recv : List UInt8 → FlowPacket)
    (peer : PeerState) (hpeer : KnowsNothing peer) :
    ∃ (r : ℤ) (exported' : UInt64) (ex' : Exporter) (ds : List (List UInt8)) (peer' : PeerState)
      (stored : List StoreFlowComplete),
      sendNetflowV9 fuel now time flows exported boot inOut ex = .ok (r, exported', ex') ∧
      ex'.net.sent = ex.net.sent ++ ds ∧ collectV9 mem recv ds peer = .ok (peer', stored) ∧
      stored.map StoreFlowComplete.report = (flows.flatMap (nf9Reports boot)).map swapTimes := by
  have hinit : ex.nf9.init = ⟨0, Softflowd.v4Template, Softflowd.v6Template⟩ := by
    rw [hex]
    rfl
  obtain ⟨st, ds, hloop, hsent, hcount, hspec⟩ := sendLoopV9_spec ⟨now, time, boot⟩ exported
    { ex := { ex with nf9 := ex.nf9.init } } (by rw [hinit]; exact ⟨rfl, rfl⟩) hsend hflows hfuel
  have hfirst := hspec.templates (by rw [hinit])
  obtain ⟨peer', stored, hcollect, hstored⟩ := collectV9_bytes mem recv hspec.wellFormed
    (.inl ⟨hpeer, hfirst⟩) boot hspec.records
  refine ⟨st.numPackets, exported + UInt64.ofNat st.j, st.ex, ds.map Nf9Datagram.bytes, peer',
    stored, ?_, hsent, hcollect, hstored⟩
  rw [sendNetflowV9, hloop]
  rfl

theorem swapTimes_eq_self {r : FlowReport} : swapTimes r = r ↔ r.start = r.finish := by
  obtain ⟨⟩ := r
  simp only [swapTimes, FlowReport.mk.injEq]
  exact ⟨fun h => h.2.2.2.2.2.2.2.2.2, fun h => by simp [h]⟩

/-- Exchanging the times changes nothing exactly when every flow starts and ends in the same
millisecond. -/
theorem map_swapTimes_iff {flows : List Flow} (hflows : ∀ f ∈ flows, f.Exportable)
    (boot : Timeval) :
    (flows.flatMap (nf9Reports boot)).map swapTimes = flows.flatMap (nf9Reports boot) ↔
      ∀ f ∈ flows, timevalSubMs f.flowStart boot = timevalSubMs f.flowLast boot := by
  have hid : (flows.flatMap (nf9Reports boot)).map swapTimes = flows.flatMap (nf9Reports boot) ↔
      ∀ r ∈ flows.flatMap (nf9Reports boot), swapTimes r = r := by
    conv_lhs => rw [← List.map_id (flows.flatMap (nf9Reports boot)), List.map_map]
    exact List.map_inj_left
  rw [hid]
  constructor
  · intro h f hf
    obtain ⟨d, hd⟩ : ∃ d, f.octets d > 0 :=
      (hflows f hf).octets.elim (fun h₀ => ⟨0, h₀⟩) fun h₁ => ⟨1, h₁⟩
    have hmem : f.report boot d (f.totals d) ∈ flows.flatMap (nf9Reports boot) := by
      refine List.mem_flatMap.mpr ⟨f, hf, List.mem_map_of_mem ?_⟩
      refine List.mem_filter.mpr ⟨?_, by simpa using hd⟩
      fin_cases d <;> simp
    exact swapTimes_eq_self.mp (h _ hmem)
  · intro h r hr
    obtain ⟨f, hf, hr⟩ := List.mem_flatMap.mp hr
    obtain ⟨d, -, rfl⟩ := List.mem_map.mp hr
    exact swapTimes_eq_self.mpr (h f hf)

/-- **NetFlow v9 round trip.** The datagrams of a call from the initial state, with all sends
succeeding, are taken by a collector without templates; what it stores is, in order, the non-empty
directions of the flows exactly when every flow starts and ends in the same millisecond, since the
collector stores the start of a flow as its end and the end as its start. -/
theorem nf9RoundTrip_iff (ex : Exporter) (hex : ex.nf9 = {})
    (hsend : ∀ k, ex.net.sendFails k = false) (flows : List Flow)
    (hflows : ∀ f ∈ flows, f.Exportable) (fuel : ℕ) (hfuel : flows.length ≤ fuel) (now : Timeval)
    (time : ℕ → ℤ) (exported : UInt64) (boot : Timeval) (inOut : ℤ) (mem : List UInt8 → Memory)
    (recv : List UInt8 → FlowPacket) (peer : PeerState) (hpeer : KnowsNothing peer) :
    ∃ (r : ℤ) (exported' : UInt64) (ex' : Exporter) (ds : List (List UInt8)) (peer' : PeerState)
      (stored : List StoreFlowComplete),
      sendNetflowV9 fuel now time flows exported boot inOut ex = .ok (r, exported', ex') ∧
      ex'.net.sent = ex.net.sent ++ ds ∧ collectV9 mem recv ds peer = .ok (peer', stored) ∧
      (stored.map StoreFlowComplete.report = flows.flatMap (nf9Reports boot) ↔
        ∀ f ∈ flows, timevalSubMs f.flowStart boot = timevalSubMs f.flowLast boot) := by
  obtain ⟨r, exported', ex', ds, peer', stored, hcall, hsent, hcollect, hstored⟩ :=
    nf9Collected ex hex hsend flows hflows fuel hfuel now time exported boot inOut mem recv peer
      hpeer
  refine ⟨r, exported', ex', ds, peer', stored, hcall, hsent, hcollect, ?_⟩
  rw [hstored]
  exact map_swapTimes_iff hflows boot

/-- A flow that ends in the millisecond it starts in comes through. -/
theorem nf9RoundTrip_iff_instant :
    ∃ (ds : List (List UInt8)) (peer' : PeerState) (stored : List StoreFlowComplete),
      collectV9 (fun _ => .heap fun _ => 0) (fun d => { packet := d }) ds {} = .ok (peer', stored) ∧
      stored.map StoreFlowComplete.report = [sampleV4Flow].flatMap (nf9Reports {}) := by
  obtain ⟨r, exported', ex', ds, peer', stored, -, -, hcollect, hiff⟩ :=
    nf9RoundTrip_iff {} rfl (fun _ => rfl) [sampleV4Flow] (by simpa using sampleV4Flow_exportable)
      1 (by decide) {} (fun _ => 0) 0 {} 0 (fun _ => .heap fun _ => 0) (fun d => { packet := d }) {}
      ⟨rfl, rfl⟩
  exact ⟨ds, peer', stored, hcollect, hiff.mpr (by simp [sampleV4Flow])⟩

/-- An IPv4 flow of two seconds. -/
def twoSecondFlow : Flow :=
  { sampleV4Flow with flowStart := ⟨1, 0⟩, flowLast := ⟨3, 0⟩ }

/-- The collector stores a flow of two seconds as one that ends before it starts. -/
theorem nf9RoundTrip_swapped :
    ∃ (r : ℤ) (exported' : UInt64) (ex' : Exporter) (ds : List (List UInt8)) (peer' : PeerState)
      (stored : List StoreFlowComplete),
      sendNetflowV9 1 {} (fun _ => 0) [twoSecondFlow] 0 {} 0 {} = .ok (r, exported', ex') ∧
      ex'.net.sent = ds ∧
      collectV9 (fun _ => .checked) (fun d => { packet := d }) ds {} = .ok (peer', stored) ∧
      stored.map StoreFlowComplete.report ≠ [twoSecondFlow].flatMap (nf9Reports {}) := by
  have hflow : twoSecondFlow.Exportable := ⟨.inl rfl, .inl (by decide)⟩
  obtain ⟨r, exported', ex', ds, peer', stored, hcall, hsent, hcollect, hstored⟩ :=
    nf9Collected {} rfl (fun _ => rfl) [twoSecondFlow] (by simpa using hflow) 1 (by decide) {}
      (fun _ => 0) 0 {} 0 (fun _ => .checked) (fun d => { packet := d }) {} ⟨rfl, rfl⟩
  refine ⟨r, exported', ex', ds, peer', stored, hcall, hsent, hcollect, ?_⟩
  rw [hstored, ne_eq, map_swapTimes_iff (by simpa using hflow)]
  decide

end Pipeline
