import NetworkMonitoring.Flowd.Peer

/-!
# flowd — the NetFlow v9 decoder

`process_netflow_v9` of `flowd.c` with the functions for template and data flowsets. A pointer into
the packet is what stands from there on, so a function is given what the pointer can load together
with the length its caller passes. `Memory` says how far that reaches: in the program, into the heap
behind the packet.

The loop over the flowsets takes an amount of fuel, and a call that runs out of it does not return.
-/

namespace Flowd

open Bytes

/-- `n` bytes at an offset. -/
def fetch (pkt : List UInt8) (offset n : ℕ) : Except Fault (List UInt8) :=
  if offset + n ≤ pkt.length then .ok ((pkt.drop offset).take n) else .error .overread

/-- A load finds the piece that stands at its offset. -/
theorem fetch_append {pre x rest : List UInt8} {offset n : ℕ} (hoff : offset = pre.length)
    (hn : n = x.length) : fetch (pre ++ (x ++ rest)) offset n = .ok x := by
  subst hoff hn
  have hle : pre.length + x.length ≤ (pre ++ (x ++ rest)).length := by
    simp only [List.length_append]
    omega
  rw [fetch, if_pos hle, List.drop_left, List.take_left]

/-- `ntohs` of the 16-bit word at an offset. -/
def fetchNtohs (pkt : List UInt8) (offset : ℕ) : Except Fault UInt16 := do
  return htons (UInt16.ofNat (leNat (← fetch pkt offset 2)))

/-- `struct NF9_HEADER` of `netflow.h`. -/
structure Nf9Header where
  version : UInt16
  flows : UInt16
  uptimeMs : UInt32
  timeSec : UInt32
  packageSequence : UInt32
  sourceId : UInt32

/-- The header at the start of a byte string. -/
def readNf9Header : StateM (List UInt8) Nf9Header := do
  return {
    version := ← read16
    flows := ← read16
    uptimeMs := ← read32
    timeSec := ← read32
    packageSequence := ← read32
    sourceId := ← read32 }

/-! ## Data records -/

/-- `BE_COPY`: copy an int (possibly shorter than the target) keeping their LSBs aligned. The
target is a word of `w` bytes. -/
def beCopy (w v : ℕ) (data : List UInt8) : Except Fault ℕ :=
  if data.length ≤ w then .ok (leNat ((leBytes w v).take (w - data.length) ++ data))
  else .error .fieldOverflow

/-- `V9_FIELD_ADDR`: copy an address into a member of `w` bytes of the address union. -/
def addrCopy (w : ℕ) (a : Xaddr) (data : List UInt8) (af : UInt16) : Except Fault Xaddr :=
  if data.length ≤ w then .ok (a.copy data af) else .error .fieldOverflow

/-- `BE_COPY` into a field of one byte. -/
def beCopy8 (v : UInt8) (data : List UInt8) : Except Fault UInt8 :=
  (beCopy 1 v.toNat data).map UInt8.ofNat

/-- `BE_COPY` into a field of two bytes. -/
def beCopy16 (v : UInt16) (data : List UInt8) : Except Fault UInt16 :=
  (beCopy 2 v.toNat data).map UInt16.ofNat

/-- `BE_COPY` into a field of four bytes. -/
def beCopy32 (v : UInt32) (data : List UInt8) : Except Fault UInt32 :=
  (beCopy 4 v.toNat data).map UInt32.ofNat

/-- `BE_COPY` into a field of eight bytes. -/
def beCopy64 (v : UInt64) (data : List UInt8) : Except Fault UInt64 :=
  (beCopy 8 v.toNat data).map UInt64.ofNat

/-- `flow->hdr.fields |= STORE_FIELD_..`. -/
def StoreFlowComplete.mark (flow : StoreFlowComplete) (field : UInt32) : StoreFlowComplete :=
  { flow with fields := flow.fields ||| field }

/-- `nf9_rec_to_flow`; `data` are the `rec->len` bytes of the field. -/
def nf9RecToFlow (type : ℕ) (flow : StoreFlowComplete) (data : List UInt8) :
    Except Fault StoreFlowComplete :=
  match type with
  -- NF9_IN_BYTES
  | 1 => return { flow.mark storeFieldOctets with flowOctets := ← beCopy64 flow.flowOctets data }
  -- NF9_IN_PACKETS
  | 2 => return { flow.mark storeFieldPackets with
      flowPackets := ← beCopy64 flow.flowPackets data }
  -- NF9_IN_PROTOCOL
  | 4 => return { flow.mark storeFieldProtoFlagsTos with protocol := ← beCopy8 flow.protocol data }
  -- NF9_SRC_TOS
  | 5 => return { flow.mark storeFieldProtoFlagsTos with tos := ← beCopy8 flow.tos data }
  -- NF9_TCP_FLAGS
  | 6 => return { flow.mark storeFieldProtoFlagsTos with tcpFlags := ← beCopy8 flow.tcpFlags data }
  -- NF9_L4_SRC_PORT
  | 7 => return { flow.mark storeFieldSrcdstPort with srcPort := ← beCopy16 flow.srcPort data }
  -- NF9_IPV4_SRC_ADDR
  | 8 => return { flow.mark storeFieldSrcAddr4 with
      srcAddr := ← addrCopy 4 flow.srcAddr data afInet }
  -- NF9_SRC_MASK
  | 9 => return { flow.mark storeFieldAsInfo with srcMask := ← beCopy8 flow.srcMask data }
  -- NF9_INPUT_SNMP
  | 10 => return { flow.mark storeFieldIfIndices with ifIndexIn := ← beCopy32 flow.ifIndexIn data }
  -- NF9_L4_DST_PORT
  | 11 => return { flow.mark storeFieldSrcdstPort with dstPort := ← beCopy16 flow.dstPort data }
  -- NF9_IPV4_DST_ADDR
  | 12 => return { flow.mark storeFieldDstAddr4 with
      dstAddr := ← addrCopy 4 flow.dstAddr data afInet }
  -- NF9_DST_MASK
  | 13 => return { flow.mark storeFieldAsInfo with dstMask := ← beCopy8 flow.dstMask data }
  -- NF9_OUTPUT_SNMP
  | 14 => return { flow.mark storeFieldIfIndices with
      ifIndexOut := ← beCopy32 flow.ifIndexOut data }
  -- NF9_IPV4_NEXT_HOP
  | 15 => return { flow.mark storeFieldGatewayAddr4 with
      gatewayAddr := ← addrCopy 4 flow.gatewayAddr data afInet }
  -- NF9_SRC_AS
  | 16 => return { flow.mark storeFieldAsInfo with srcAs := ← beCopy32 flow.srcAs data }
  -- NF9_DST_AS
  | 17 => return { flow.mark storeFieldAsInfo with dstAs := ← beCopy32 flow.dstAs data }
  -- NF9_LAST_SWITCHED
  | 21 => return { flow.mark storeFieldFlowTimes with
      flowFinish := ← beCopy32 flow.flowFinish data }
  -- NF9_FIRST_SWITCHED
  | 22 => return { flow.mark storeFieldFlowTimes with flowStart := ← beCopy32 flow.flowStart data }
  -- NF9_IPV6_SRC_ADDR
  | 27 => return { flow.mark storeFieldSrcAddr6 with
      srcAddr := ← addrCopy 16 flow.srcAddr data afInet6 }
  -- NF9_IPV6_DST_ADDR
  | 28 => return { flow.mark storeFieldDstAddr6 with
      dstAddr := ← addrCopy 16 flow.dstAddr data afInet6 }
  -- NF9_IPV6_SRC_MASK
  | 29 => return { flow.mark storeFieldAsInfo with srcMask := ← beCopy8 flow.srcMask data }
  -- NF9_IPV6_DST_MASK
  | 30 => return { flow.mark storeFieldAsInfo with dstMask := ← beCopy8 flow.dstMask data }
  -- NF9_ENGINE_TYPE
  | 38 => return { flow.mark storeFieldFlowEngineInfo with
      engineType := ← beCopy16 flow.engineType data }
  -- NF9_ENGINE_ID
  | 39 => return { flow.mark storeFieldFlowEngineInfo with engineId := ← beCopy16 flow.engineId data }
  -- NF9_IPV6_NEXT_HOP
  | 62 => return { flow.mark storeFieldGatewayAddr6 with
      gatewayAddr := ← addrCopy 16 flow.gatewayAddr data afInet6 }
  | _ => return flow

/-- The size of the field a record type is copied into. -/
def nf9FieldLen : ℕ → Option ℕ
  | 1 | 2 => some 8
  | 4 | 5 | 6 | 9 | 13 | 29 | 30 => some 1
  | 7 | 11 | 38 | 39 => some 2
  | 8 | 10 | 12 | 14 | 15 | 16 | 17 | 21 | 22 => some 4
  | 27 | 28 | 62 => some 16
  | _ => none

/-- `nf9_check_rec_len`. -/
def nf9CheckRecLen (type len : ℕ) : Bool :=
  -- Sanity check
  if len = 0 ∨ len > 0x4000 then false
  else match nf9FieldLen type with
    | some size => len ≤ size
    | none => true

/-- The loop of `nf9_flowset_to_store` over the records of the template. -/
def recordLoop (pkt : List UInt8) : List PeerNf9Record → ℕ → StoreFlowComplete →
    Except Fault StoreFlowComplete
  | [], _, flow => .ok flow
  | r :: rs, offset, flow => do
    let flow ← nf9RecToFlow r.type flow (← fetch pkt offset r.len)
    recordLoop pkt rs (offset + r.len) flow

/-- The record `nf9_flowset_to_store` starts from. -/
def nf9Start (fp : FlowPacket) (peer : PeerState) (hdr : Nf9Header) (sourceId : UInt32) :
    StoreFlowComplete where
  fields := storeFieldRecvTime ||| storeFieldAgentInfo ||| storeFieldAgentAddr
  sysUptimeMs := hdr.uptimeMs
  timeSec := hdr.timeSec
  netflowVersion := hdr.version
  flowSequence := hdr.packageSequence
  sourceId := htonl sourceId
  recvSec := UInt32.ofInt fp.recvSec
  recvUsec := UInt32.ofInt fp.recvUsec
  agentAddr := peer.origin

/-- `nf9_flowset_to_store`; `none` where it returns `-1`. -/
def nf9FlowsetToStore (fp : FlowPacket) (peer : PeerState) (hdr : Nf9Header) (sourceId : UInt32)
    (pkt : List UInt8) (len : ℕ) (template : PeerNf9Template) (records : List PeerNf9Record) :
    Except Fault (Option StoreFlowComplete) :=
  if template.totalLen > len then .ok none
  else (recordLoop pkt records 0 (nf9Start fp peer hdr sourceId)).map some

/-! ## Flowsets -/

/-- What a function for one flowset returns: the peer, the records handed to `process_flow` and
whether the rest of the packet is looked at. -/
structure FlowsetResult where
  peer : PeerState
  flows : List StoreFlowComplete := []
  proceed : Bool

/-- The loop of `process_netflow_v9_template` over the `count` records of one template: the
records, their total size and the offset behind them; `none` when the template is rejected. -/
def templateRecords (limits : PeerLimits) (pkt : List UInt8) (len : ℕ) :
    ℕ → ℕ → List PeerNf9Record → ℕ → Except Fault (Option (List PeerNf9Record × ℕ × ℕ))
  | 0, offset, recs, totalSize => .ok (some (recs, totalSize, offset))
  | count + 1, offset, recs, totalSize =>
    if offset ≥ len then .ok none
    else do
      let type := (← fetchNtohs pkt offset).toNat
      let recLen := (← fetchNtohs pkt (offset + 2)).toNat
      if totalSize + recLen > limits.maxTemplateLen then return none
      else if !nf9CheckRecLen type recLen then return none
      else
        templateRecords limits pkt len count (offset + 4) (recs ++ [⟨type, recLen⟩])
          (totalSize + recLen)

/-- The loop of `process_netflow_v9_template` over the templates of a flowset. Each of them takes
at least four bytes. -/
def templateLoop (limits : PeerLimits) (sourceId : UInt32) (pkt : List UInt8) (len : ℕ) :
    ℕ → ℕ → PeerState → Except Fault FlowsetResult
  | 0, _, _ => .error .noReturn
  | fuel + 1, offset, peer =>
    if offset ≥ len then .ok { peer := peer, proceed := true }
    else do
      let templateId ← fetchNtohs pkt offset
      let count := (← fetchNtohs pkt (offset + 2)).toNat
      -- the records of the template are read before it is looked for
      match ← templateRecords limits pkt len count (offset + 4) [] 0 with
      | none => return { peer := peer.invalid, proceed := false }
      | some (recs, totalSize, offset) =>
        let peer ← peer.ensureTemplate limits sourceId templateId
        templateLoop limits sourceId pkt len fuel offset
          (peer.fillTemplate sourceId templateId recs totalSize)

/-- `process_netflow_v9_template`. -/
def processNetflowV9Template (limits : PeerLimits) (sourceId : UInt32) (pkt : List UInt8)
    (len : ℕ) (peer : PeerState) : Except Fault FlowsetResult :=
  if len < 4 then .ok { peer := peer.invalid, proceed := false }
  else do
    if (← fetchNtohs pkt 0) ≠ 0 then .error .exit
    else templateLoop limits sourceId pkt len len 4 peer

/-- The loop of `process_netflow_v9_data` over the `n` records from `offset` on; `none` when one of
them is rejected. -/
def dataLoop (fp : FlowPacket) (peer : PeerState) (hdr : Nf9Header) (sourceId : UInt32)
    (pkt : List UInt8) (template : PeerNf9Template) (records : List PeerNf9Record) :
    ℕ → ℕ → Except Fault (Option (List StoreFlowComplete))
  | 0, _ => .ok (some [])
  | n + 1, offset => do
    match ← nf9FlowsetToStore fp peer hdr sourceId (pkt.drop offset) template.totalLen template
        records with
    | none => return none
    | some flow =>
      return (← dataLoop fp peer hdr sourceId pkt template records n
        (offset + template.totalLen)).map (flow :: ·)

/-- `process_netflow_v9_data`. -/
def processNetflowV9Data (fp : FlowPacket) (hdr : Nf9Header) (sourceId : UInt32)
    (pkt : List UInt8) (len : ℕ) (peer : PeerState) : Except Fault FlowsetResult :=
  if len < 4 then .ok { peer := peer.invalid, proceed := false }
  else do
    match peer.findTemplate sourceId (← fetchNtohs pkt 0) with
    -- data without a template are passed over, the rest of the packet is read
    | none => return { peer := { peer with noTemplate := peer.noTemplate + 1 }, proceed := true }
    | some template =>
      match template.records with
      -- `logerrx`: a template without records
      | none => .error .exit
      | some records =>
        -- no test for a template whose fields have no length
        if template.totalLen = 0 then .error .divByZero
        else
          let numFlowsets := (len - 4) / template.totalLen
          if numFlowsets = 0 ∨ numFlowsets > 0x4000 then return { peer := peer, proceed := false }
          else
            match ← dataLoop fp peer hdr sourceId pkt template records numFlowsets 4 with
            | none => return { peer := peer.invalid, proceed := false }
            | some flows => return { peer := peer, flows := flows, proceed := true }

/-- `NF9_MIN_RECORD_FLOWSET_ID`. -/
def nf9MinRecordFlowsetId : UInt16 := 256

/-- The `switch` of `process_netflow_v9`. -/
def processFlowset (limits : PeerLimits) (fp : FlowPacket) (hdr : Nf9Header) (sourceId : UInt32)
    (flowsetId : UInt16) (pkt : List UInt8) (len : ℕ) (peer : PeerState) :
    Except Fault FlowsetResult :=
  if flowsetId = 0 then processNetflowV9Template limits sourceId pkt len peer
  -- options flowset, and unknown reserved flowset types
  else if flowsetId < nf9MinRecordFlowsetId then .ok { peer := peer, proceed := true }
  else processNetflowV9Data fp hdr sourceId pkt len peer

/-- How far the pointers into a packet reach. -/
inductive Memory where
  /-- To the end of the flowset or of the packet; a load behind it is a fault. -/
  | checked
  /-- As far as the program gets: three bytes of the heap behind the packet can be loaded. -/
  | heap (behind : Fin 3 → UInt8)

/-- What a pointer to the packet can load. -/
def Memory.packet (mem : Memory) (fp : FlowPacket) : List UInt8 :=
  match mem with
  | .checked => fp.packet
  | .heap behind => fp.packet ++ List.ofFn behind

/-- What a pointer to the flowset of `len` bytes at an offset can load. -/
def Memory.flowset (mem : Memory) (fp : FlowPacket) (offset len : ℕ) : List UInt8 :=
  match mem with
  | .checked => (fp.packet.drop offset).take len
  | .heap behind => fp.packet.drop offset ++ List.ofFn behind

/-- The loop of `process_netflow_v9` over the flowsets; `proceed` tells whether it has reached the
end of the packet. -/
def flowsetLoop (mem : Memory) (limits : PeerLimits) (fp : FlowPacket) (hdr : Nf9Header)
    (sourceId : UInt32) : ℕ → ℕ → FlowsetResult → Except Fault FlowsetResult
  | 0, _, _ => .error .noReturn
  | fuel + 1, offset, res =>
    let short := .ok { peer := res.peer.invalid, flows := res.flows, proceed := false }
    -- Make sure we don't run off the end of the flow
    if offset ≥ fp.packet.length then short
    else do
      let flowsetId ← fetchNtohs (mem.packet fp) offset
      let flowsetLen := (← fetchNtohs (mem.packet fp) (offset + 2)).toNat
      if offset + flowsetLen > fp.packet.length then short
      else
        let next ← processFlowset limits fp hdr sourceId flowsetId
          (mem.flowset fp offset flowsetLen) flowsetLen res.peer
        let next := { next with flows := res.flows ++ next.flows }
        if !next.proceed then return next
        else if offset + flowsetLen = fp.packet.length then return next
        else flowsetLoop mem limits fp hdr sourceId fuel (offset + flowsetLen) next

/-- `process_netflow_v9`: the peer after it and the records handed to `process_flow`. -/
def processNetflowV9 (mem : Memory) (limits : PeerLimits) (fuel : ℕ) (fp : FlowPacket)
    (peer : PeerState) : Except Fault (PeerState × List StoreFlowComplete) :=
  if fp.packet.length < 20 then .ok (peer.invalid, [])
  else do
    let hdr := (readNf9Header.run fp.packet).1
    let res ← flowsetLoop mem limits fp hdr (htonl hdr.sourceId) fuel 20
      { peer := peer, proceed := true }
    -- Don't update peer unless we actually receive data from it
    if res.proceed ∧ res.flows.length > 0 then return (res.peer.update res.flows.length 9, res.flows)
    else return (res.peer, res.flows)

end Flowd
