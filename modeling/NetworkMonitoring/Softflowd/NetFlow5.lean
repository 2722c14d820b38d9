import NetworkMonitoring.Softflowd.Export

/-!
# softflowd — the NetFlow v5 exporter

`send_netflow_v5` of `netflow5.c`. The packet buffer is a header and the records written behind
it; what is sent are its first `offset` bytes. The structures have no padding, so their bytes in
memory are the bytes of their fields in order.
-/

namespace Softflowd

open Bytes InetText

/-- `struct NF5_HEADER`. -/
structure Nf5Header where
  version : UInt16 := 0
  flows : UInt16 := 0
  uptimeMs : UInt32 := 0
  timeSec : UInt32 := 0
  timeNanosec : UInt32 := 0
  flowSequence : UInt32 := 0
  engineType : UInt8 := 0
  engineId : UInt8 := 0
  reserved1 : UInt8 := 0
  reserved2 : UInt8 := 0
  /-- Added to support the emulator functions. -/
  emulatorMonitorAdr : InAddr := fun _ => 0
  deriving DecidableEq

/-- `struct NF5_FLOW`. -/
structure Nf5Flow where
  srcIp : InAddr := fun _ => 0
  destIp : InAddr := fun _ => 0
  nexthopIp : InAddr := fun _ => 0
  ifIndexIn : UInt16 := 0
  ifIndexOut : UInt16 := 0
  flowPackets : UInt32 := 0
  flowOctets : UInt32 := 0
  flowStart : UInt32 := 0
  flowFinish : UInt32 := 0
  srcPort : UInt16 := 0
  destPort : UInt16 := 0
  pad1 : UInt8 := 0
  tcpFlags : UInt8 := 0
  protocol : UInt8 := 0
  tos : UInt8 := 0
  srcAs : UInt32 := 0
  destAs : UInt32 := 0
  srcMask : UInt8 := 0
  dstMask : UInt8 := 0
  pad2 : UInt16 := 0
  /-- Added to support the emulator functions. -/
  emulatorMonitorAdr : InAddr := fun _ => 0
  deriving DecidableEq

/-- The memory of a header. -/
def Nf5Header.bytes (h : Nf5Header) : List UInt8 :=
  le16 h.version ++ (le16 h.flows ++ (le32 h.uptimeMs ++ (le32 h.timeSec ++ (le32 h.timeNanosec ++
    (le32 h.flowSequence ++ (h.engineType :: h.engineId :: h.reserved1 :: h.reserved2 ::
    List.ofFn h.emulatorMonitorAdr))))))

/-- The memory of a record. -/
def Nf5Flow.bytes (f : Nf5Flow) : List UInt8 :=
  List.ofFn f.srcIp ++ (List.ofFn f.destIp ++ (List.ofFn f.nexthopIp ++ (le16 f.ifIndexIn ++
    (le16 f.ifIndexOut ++ (le32 f.flowPackets ++ (le32 f.flowOctets ++ (le32 f.flowStart ++
    (le32 f.flowFinish ++ (le16 f.srcPort ++ (le16 f.destPort ++
    (f.pad1 :: f.tcpFlags :: f.protocol :: f.tos :: (le32 f.srcAs ++ (le32 f.destAs ++
    (f.srcMask :: f.dstMask :: (le16 f.pad2 ++ List.ofFn f.emulatorMonitorAdr)))))))))))))))

@[simp]
theorem Nf5Header.length_bytes (h : Nf5Header) : h.bytes.length = 28 := by
  simp [Nf5Header.bytes]

@[simp]
theorem Nf5Flow.length_bytes (f : Nf5Flow) : f.bytes.length = 56 := by
  simp [Nf5Flow.bytes]

/-- `NF5_MAXFLOWS`. -/
def nf5MaxFlows : ℕ := 30

/-- What a call of `send_netflow_v5` is given besides the flows: the flag `using_emulator`, the
current time, `*system_boot_time` and `inOut`. -/
structure V5Env where
  usingEmulator : Bool
  now : Timeval
  boot : Timeval
  inOut : ℤ

/-- The counters an exported record is made of. -/
def V5Env.stat (env : V5Env) (f : Flow) (d : Dir) : PerMonitorStat :=
  if env.usingEmulator then f.selectedStat d else f.totals d

/-- Whether direction `d` of a flow is exported. -/
def V5Env.selects (env : V5Env) (f : Flow) (d : Dir) : Bool :=
  (env.stat f d).octets > 0 && (!env.usingEmulator || env.inOut == d.val)

/-- The record of direction `d` of a flow; the four blocks of the source differ only in the
direction and in where the counters come from. -/
def V5Env.record (env : V5Env) (f : Flow) (d : Dir) : Nf5Flow where
  emulatorMonitorAdr := if env.usingEmulator then f.selectedMonitor else fun _ => 0
  srcAs := f.asSrc d
  destAs := f.asDst d.other
  srcIp := (f.addr d).v4
  destIp := (f.addr d.other).v4
  srcPort := f.port d
  destPort := f.port d.other
  flowPackets := htonl (env.stat f d).packets
  flowOctets := htonl (env.stat f d).octets
  flowStart := htonl (timevalSubMs f.flowStart env.boot)
  flowFinish := htonl (timevalSubMs f.flowLast env.boot)
  tcpFlags := f.tcpFlags d
  protocol := f.protocol

/-- The local variables of `send_netflow_v5`. -/
structure V5Send where
  numPackets : ℕ := 0
  offset : ℕ := 0
  j : ℕ := 0
  hdr : Nf5Header := {}
  /-- The records behind the header in `packet`. -/
  flows : List Nf5Flow := []
  /-- `*flows_exported`. -/
  exported : UInt64
  net : Net

/-- How the loop over the flows stops early. -/
inductive V5Stop where
  /-- A `send` failed, and the function returns `-1`. -/
  | sendFailed (st : V5Send)
  /-- `selected_monitor_index` is outside the monitor tables. -/
  | fault

/-- The header of a packet that has no records yet. -/
def V5Env.header (env : V5Env) (exported : UInt64) : Nf5Header where
  version := htons 5
  flows := 0
  uptimeMs := htonl (timevalSubMs env.now env.boot)
  timeSec := htonl (UInt32.ofInt env.now.sec)
  timeNanosec := htonl (UInt32.ofInt (env.now.usec * 1000))
  flowSequence := htonl exported.toUInt32
  emulatorMonitorAdr := fun _ => 0

namespace V5Send

/-- Send the packet: the first `offset` bytes of the buffer. -/
def flush (st : V5Send) : Except V5Stop V5Send :=
  let st := { st with hdr := { st.hdr with flows := htons st.hdr.flows } }
  match st.net.send ((st.hdr.bytes ++ st.flows.flatMap Nf5Flow.bytes).take st.offset) with
  | .error net => .error (.sendFailed { st with net := net })
  | .ok net => .ok { st with
      net := net
      exported := st.exported + UInt64.ofNat st.j
      j := 0
      numPackets := st.numPackets + 1 }

/-- Send the packet when it has no room for two more records. -/
def makeRoom (st : V5Send) : Except V5Stop V5Send :=
  if st.j ≥ nf5MaxFlows - 1 then st.flush else .ok st

/-- Start a new packet; `hdr->flows` is filled in as we go. -/
def start (env : V5Env) (st : V5Send) : V5Send :=
  { st with hdr := env.header st.exported, flows := [], offset := 28 }

/-- Write the record of direction `d`, if it is exported. -/
def put (env : V5Env) (f : Flow) (st : V5Send) (d : Dir) : V5Send :=
  if env.selects f d then
    { st with
      flows := st.flows ++ [env.record f d]
      offset := st.offset + 56
      j := st.j + 1
      hdr := { st.hdr with flows := st.hdr.flows + 1 } }
  else st

/-- Copy the emulator monitor source adr. -/
def nameMonitor (env : V5Env) (f : Flow) (st : V5Send) : V5Send :=
  if st.j = 0 ∧ env.usingEmulator then
    { st with hdr := { st.hdr with emulatorMonitorAdr := f.selectedMonitor } }
  else st

/-- One iteration of the loop over the flows. -/
def step (env : V5Env) (st : V5Send) (f : Flow) : Except V5Stop V5Send := do
  let st ← st.makeRoom
  let st := if st.j = 0 then st.start env else st
  -- NetFlow v.5 doesn't do IPv6
  if f.af ≠ afInet then return st
  else if env.usingEmulator ∧ maxEmulators ≤ f.selectedMonitorIndex.toNat then .error .fault
  else return put env f (put env f (nameMonitor env f st) 0) 1

end V5Send

/-- The loop of `send_netflow_v5` and the datagram it sends for what is left over. -/
def sendLoopV5 (env : V5Env) (flows : List Flow) (st : V5Send) : Except V5Stop V5Send := do
  let st ← flows.foldlM (V5Send.step env) st
  -- Send any leftovers
  if st.j ≠ 0 then st.flush else return st

/-- `send_netflow_v5`. -/
def sendNetflowV5 (usingEmulator : Bool) (now : Timeval) : NetflowSendFunc :=
  fun flows flowsExported boot inOut ex =>
    match sendLoopV5 ⟨usingEmulator, now, boot, inOut⟩ flows
        { exported := flowsExported, net := ex.net } with
    | .error .fault => .error .monitorTable
    | .error (.sendFailed st) => .ok (-1, st.exported, { ex with net := st.net })
    | .ok st => .ok (st.numPackets, st.exported, { ex with net := st.net })

end Softflowd
