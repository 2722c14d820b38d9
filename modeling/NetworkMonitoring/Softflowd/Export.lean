import NetworkMonitoring.Softflowd.Flow

/-!
# softflowd — what the exporters share

The UDP socket towards the collector, `timeval_sub_ms`, and the type of the NetFlow send
functions in the table `nf[]`. The socket keeps the datagrams it was given and an arbitrary
pattern of failing `send` calls.

`FlowReport` is what one exported record says about one direction of a flow, independent of the
NetFlow version that carries it.
-/

namespace Softflowd

open Bytes InetText

/-- The connected UDP socket `nfsock`. -/
structure Net where
  /-- The datagrams sent so far, oldest first. -/
  sent : List (List UInt8) := []
  /-- The number of `send` calls made so far. -/
  attempts : ℕ := 0
  /-- Whether the `k`-th `send` call returns `-1`. -/
  sendFails : ℕ → Bool := fun _ => false

/-- `send`; the state is in `error` when it returns `-1`. -/
def Net.send (net : Net) (datagram : List UInt8) : Except Net Net :=
  if net.sendFails net.attempts then .error { net with attempts := net.attempts + 1 }
  else .ok { net with sent := net.sent ++ [datagram], attempts := net.attempts + 1 }

/-- `struct NF9_SOFTFLOWD_TEMPLATE`; a record is a type and a length. -/
structure Nf9Template where
  flowsetId : UInt16 := 0
  length : UInt16 := 0
  templateId : UInt16 := 0
  count : UInt16 := 0
  records : List (UInt16 × UInt16) := List.replicate 11 (0, 0)
  deriving DecidableEq

/-- The memory of a template. -/
def Nf9Template.bytes (t : Nf9Template) : List UInt8 :=
  le16 t.flowsetId ++ (le16 t.length ++ (le16 t.templateId ++ (le16 t.count ++
    t.records.flatMap fun (type, length) => le16 type ++ le16 length)))

/-- The static variables of `netflow9.c`. -/
structure Nf9Statics where
  /-- `nf9_pkts_until_template`. -/
  pktsUntilTemplate : ℤ := -1
  v4Template : Nf9Template := {}
  v6Template : Nf9Template := {}

/-- The state the send functions keep between calls. -/
structure Exporter where
  net : Net := {}
  nf9 : Nf9Statics := {}

/-- `netflow_send_func_t`: from the flows, `*flows_exported`, the boot time and `inOut` to the
return value, `*flows_exported` and the exporter state. -/
abbrev NetflowSendFunc :=
  List Flow → UInt64 → Timeval → ℤ → Exporter → Except Fault (ℤ × UInt64 × Exporter)

/-- `timeval_sub_ms`: `t1 - t2` in milliseconds. -/
def timevalSubMs (t1 t2 : Timeval) : UInt32 :=
  let sec := t1.sec - t2.sec
  let usec := t1.usec - t2.usec
  let (sec, usec) := if usec < 0 then (sec - 1, usec + 1000000) else (sec, usec)
  UInt32.ofInt sec * 1000 + UInt32.ofInt usec / 1000

/-! ## Reports -/

/-- An endpoint address. -/
inductive Address where
  | v4 (a : InAddr)
  | v6 (a : FlowAddr)
  deriving DecidableEq

/-- What an exported record says about one direction of a flow. -/
structure FlowReport where
  src : Address
  dst : Address
  /-- Ports as stored, in network byte order. -/
  srcPort : UInt16
  dstPort : UInt16
  protocol : UInt8
  tcpFlags : UInt8
  packets : ℕ
  octets : ℕ
  /-- Milliseconds since `system_boot_time`. -/
  start : UInt32
  finish : UInt32
  deriving DecidableEq

/-- The address of endpoint `d` of a flow. -/
def Flow.address (f : Flow) (d : Dir) : Address :=
  if f.af = afInet then .v4 (f.addr d).v4 else .v6 (f.addr d)

/-- The report of direction `d` of a flow with the given counters. -/
def Flow.report (f : Flow) (boot : Timeval) (d : Dir) (stat : PerMonitorStat) : FlowReport where
  src := f.address d
  dst := f.address d.other
  srcPort := f.port d
  dstPort := f.port d.other
  protocol := f.protocol
  tcpFlags := f.tcpFlags d
  packets := stat.packets.toNat
  octets := stat.octets.toNat
  start := timevalSubMs f.flowStart boot
  finish := timevalSubMs f.flowLast boot

/-- The totals of direction `d` over all monitors. -/
def Flow.totals (f : Flow) (d : Dir) : PerMonitorStat :=
  { octets := f.octets d, packets := f.packets d }

/-- The statistics of the selected monitor in direction `d`, for a selected index inside the
table. -/
def Flow.selectedStat (f : Flow) (d : Dir) : PerMonitorStat :=
  if h : f.selectedMonitorIndex.toNat < maxEmulators then
    f.monitorStat d ⟨f.selectedMonitorIndex.toNat, h⟩
  else {}

end Softflowd
