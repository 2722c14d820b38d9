import NetworkMonitoring.Softflowd.Packet

/-!
# softflowd — the flow tracking structure

`struct FLOWTRACK` and the operations of `softflowd.c` on it that do not export: flow creation,
`flow_update_expiry`, `process_packet`, `force_expire` and `delete_all_flows`.

* The allocator never hands out the address of a live record: `nextPtr` is the next unused one.
  Whether an allocation succeeds is an input of each operation.
* The `STATISTIC` records (`double` minimum, mean and maximum) are not tracked; the per-protocol
  sums the source adds up in `double` are kept as integers.
-/

namespace Softflowd

open Bytes Function

/-! ## State -/

/-- The flow tracking level, `TRACK_*`. -/
inductive TrackLevel where
  | full | ipProto | ipOnly
  deriving DecidableEq, Repr

/-- `struct FLOWTRACK`. The default values are those of `init_flowtrack`. -/
structure FlowTrack where
  flows : List Flow := []
  expiries : List Expiry := []
  numFlows : UInt32 := 0
  nextFlowSeq : UInt64 := 1
  /-- The next unused heap address. -/
  nextPtr : ℕ := 0
  systemBootTime : Timeval := {}
  trackLevel : TrackLevel := .full
  tcpTimeout : ℤ := 3600
  tcpRstTimeout : ℤ := 120
  tcpFinTimeout : ℤ := 300
  udpTimeout : ℤ := 300
  icmpTimeout : ℤ := 300
  generalTimeout : ℤ := 3600
  maximumLifetime : ℤ := 3600 * 24 * 7
  expiryInterval : ℤ := 60
  totalPackets : UInt64 := 0
  fragPackets : UInt64 := 0
  badPackets : UInt64 := 0
  flowsExpired : UInt64 := 0
  flowsExported : UInt64 := 0
  flowsDropped : UInt64 := 0
  flowsForceExpired : UInt64 := 0
  packetsSent : UInt64 := 0
  flowsPp : UInt8 → UInt64 := fun _ => 0
  octetsPp : UInt8 → UInt64 := fun _ => 0
  packetsPp : UInt8 → UInt64 := fun _ => 0
  /-- The ten `expired_*` counters. -/
  expired : Reason → UInt64 := fun _ => 0

/-- Return values from `process_packet` and `process_emulator_packet`. -/
inductive PpResult where
  | ok | badPacket | mallocFail
  deriving DecidableEq, Repr

/-- Which of the two allocations of a flow creation succeed. -/
structure Alloc where
  flow : Bool := true
  expiry : Bool := true
  deriving DecidableEq, Repr

/-! ## Nodes of the two trees -/

namespace FlowTrack

/-- The flow at address `p`. -/
def flowAt (ft : FlowTrack) (p : ℕ) : Option Flow := ft.flows.find? fun f => f.ptr == p

/-- The expiry event `flow->expiry` designates. -/
def expiryOf (ft : FlowTrack) (flow : Flow) : Option Expiry :=
  flow.expiry.bind fun p => ft.expiries.find? fun e => e.ptr == p

/-- Write to the flow at address `p`. -/
def modifyFlow (ft : FlowTrack) (p : ℕ) (g : Flow → Flow) : FlowTrack :=
  { ft with flows := ft.flows.map fun f => if f.ptr = p then g f else f }

/-- `FLOW_FIND`. -/
def flowFind (ft : FlowTrack) (tmp : Flow) : Option Flow :=
  OrderedSet.find flowCompare tmp ft.flows

/-- `FLOW_INSERT`. -/
def flowInsert (ft : FlowTrack) (flow : Flow) : FlowTrack :=
  { ft with flows := OrderedSet.insert flowCompare flow ft.flows }

/-- `FLOW_REMOVE`. -/
def flowRemove (ft : FlowTrack) (p : ℕ) : FlowTrack :=
  { ft with flows := ft.flows.filter fun f => f.ptr != p }

/-- `EXPIRY_INSERT`. -/
def expiryInsert (ft : FlowTrack) (e : Expiry) : FlowTrack :=
  { ft with expiries := OrderedSet.insert (expiryCompare ft.flows) e ft.expiries }

/-- `EXPIRY_REMOVE`. -/
def expiryRemove (ft : FlowTrack) (p : ℕ) : FlowTrack :=
  { ft with expiries := ft.expiries.filter fun e => e.ptr != p }

/-- Remove an expiry event, change its key and insert it again. -/
def rekey (ft : FlowTrack) (e : Expiry) (expiresAt : UInt32) (reason : Reason) : FlowTrack :=
  (ft.expiryRemove e.ptr).expiryInsert { e with expiresAt := expiresAt, reason := reason }

/-! ## Expiry scheduling -/

/-- The expiry time and reason `flow_update_expiry` has computed when it reaches `out:`. -/
def scheduledExpiry (ft : FlowTrack) (flow : Flow) : UInt32 × Reason :=
  -- Flows over 2Gb traffic
  if flow.octets 0 > 2147483648 ∨ flow.octets 1 > 2147483648 then (0, .overbytes)
  -- Flows over maximum life seconds
  else if ft.maximumLifetime ≠ 0 ∧
      flow.flowLast.sec - flow.flowStart.sec > ft.maximumLifetime then (0, .maxlife)
  -- Reset TCP flows
  else if flow.protocol = ipprotoTcp ∧ ft.tcpRstTimeout ≠ 0 ∧
      (flow.tcpFlags 0 &&& 0x04 ≠ 0 ∨ flow.tcpFlags 1 &&& 0x04 ≠ 0) then
    (UInt32.ofInt (flow.flowLast.sec + ft.tcpRstTimeout), .tcpRst)
  -- Finished TCP flows
  else if flow.protocol = ipprotoTcp ∧ ft.tcpFinTimeout ≠ 0 ∧
      flow.tcpFlags 0 &&& 0x01 ≠ 0 ∧ flow.tcpFlags 1 &&& 0x01 ≠ 0 then
    (UInt32.ofInt (flow.flowLast.sec + ft.tcpFinTimeout), .tcpFin)
  -- TCP flows
  else if flow.protocol = ipprotoTcp ∧ ft.tcpTimeout ≠ 0 then
    (UInt32.ofInt (flow.flowLast.sec + ft.tcpTimeout), .tcp)
  -- UDP flows
  else if ft.udpTimeout ≠ 0 ∧ flow.protocol = ipprotoUdp then
    (UInt32.ofInt (flow.flowLast.sec + ft.udpTimeout), .udp)
  -- ICMP flows
  else if ft.icmpTimeout ≠ 0 ∧ ((flow.af = afInet ∧ flow.protocol = ipprotoIcmp) ∨
      (flow.af = afInet6 ∧ flow.protocol = ipprotoIcmpv6)) then
    (UInt32.ofInt (flow.flowLast.sec + ft.icmpTimeout), .icmp)
  -- Everything else
  else (UInt32.ofInt (flow.flowLast.sec + ft.generalTimeout), .general)

/-- The key `flow_update_expiry` leaves: the scheduled time, cut off at the maximum lifetime. -/
def newExpiry (ft : FlowTrack) (flow : Flow) : UInt32 × Reason :=
  let (expiresAt, reason) := ft.scheduledExpiry flow
  if ft.maximumLifetime ≠ 0 ∧ expiresAt ≠ 0 then
    (UInt32.ofInt (min (expiresAt.toNat : ℤ) (flow.flowStart.sec + ft.maximumLifetime)), reason)
  else (expiresAt, reason)

/-- `flow_update_expiry`, called with the flow at address `p`. -/
def flowUpdateExpiry (ft : FlowTrack) (p : ℕ) : Except Fault FlowTrack :=
  match ft.flowAt p with
  | none => .error .pointer
  | some flow =>
    match ft.expiryOf flow with
    | none => .error .pointer
    | some e => .ok (ft.rekey e (ft.newExpiry flow).1 (ft.newExpiry flow).2)

theorem mem_of_expiryOf {ft : FlowTrack} {flow : Flow} {e : Expiry}
    (h : ft.expiryOf flow = some e) : e ∈ ft.expiries := by
  obtain ⟨p, -, hfind⟩ := Option.bind_eq_some_iff.mp h
  exact List.mem_of_find?_eq_some hfind

/-- `flow_update_expiry` moves the event of the flow to the time it has computed. -/
theorem flowUpdateExpiry_eq_ok {ft ft' : FlowTrack} {p : ℕ} :
    ft.flowUpdateExpiry p = .ok ft' ↔ ∃ flow e, ft.flowAt p = some flow ∧
      ft.expiryOf flow = some e ∧
        ft' = ft.rekey e (ft.newExpiry flow).1 (ft.newExpiry flow).2 := by
  unfold flowUpdateExpiry
  constructor
  · intro h
    split at h
    · cases h
    · rename_i flow hat
      split at h
      · cases h
      · rename_i e hof
        exact ⟨flow, e, hat, hof, (Except.ok.inj h).symm⟩
  · rintro ⟨flow, e, hat, hof, rfl⟩
    rw [hat]
    simp only [hof]

/-! ## Creating flows -/

/-- The part `process_packet` and `process_emulator_packet` share: allocate the flow, insert it,
allocate its expiry event and insert that. The second component is the address of the new flow,
or `none` when an allocation fails. -/
def createFlow (ft : FlowTrack) (tmp : Flow) (alloc : Alloc) : FlowTrack × Option ℕ :=
  if !alloc.flow then (ft, none)
  else if !alloc.expiry then
    -- The flow is already in the tree, and its expiry pointer is NULL.
    let flow := { tmp with ptr := ft.nextPtr, flowSeq := ft.nextFlowSeq, expiry := none }
    ({ ft with nextFlowSeq := ft.nextFlowSeq + 1, nextPtr := ft.nextPtr + 2 }.flowInsert flow, none)
  else
    let flow := { tmp with
      ptr := ft.nextPtr, flowSeq := ft.nextFlowSeq, expiry := some (ft.nextPtr + 1) }
    -- Must be non-zero (0 means expire immediately)
    let e : Expiry :=
      { ptr := ft.nextPtr + 1, flow := ft.nextPtr, expiresAt := 1, reason := .general }
    let ft := { ft with nextFlowSeq := ft.nextFlowSeq + 1, nextPtr := ft.nextPtr + 2 }
    let ft := (ft.flowInsert flow).expiryInsert e
    ({ ft with numFlows := ft.numFlows + 1 }, some flow.ptr)

/-- Zero out bits of the flow that aren't relevant to tracking level. -/
def maskRecord (ft : FlowTrack) (tmp : Flow) : Flow :=
  match ft.trackLevel with
  | .ipOnly => { tmp with protocol := 0, port := fun _ => 0, tcpFlags := fun _ => 0 }
  | .ipProto => { tmp with port := fun _ => 0, tcpFlags := fun _ => 0 }
  | .full => tmp

/-- Add the counters and flags of the record `tmp` to a flow. -/
def addRecord (tmp flow : Flow) : Flow :=
  { flow with
    packets := fun d => flow.packets d + tmp.packets d
    octets := fun d => flow.octets d + tmp.octets d
    tcpFlags := fun d => flow.tcpFlags d ||| tmp.tcpFlags d }

/-- Convert the packet to a flow identity; `none` is the `bad:` label. -/
def packetRecord (m : Mem) (af : ℤ) (caplen len : UInt32) : Option (Flow × Bool) :=
  if af = afInet then
    (ipv4ToFlowrec {} m caplen.toNat len af).map fun (_, tmp, frag) => (tmp, frag)
  else if af = afInet6 then
    (ipv6ToFlowrec {} m caplen.toNat len af).map fun (_, tmp, frag) => (tmp, frag)
  else none

/-- The end of `process_packet`: the flow at `p` was seen at `received`. -/
def touchFlow (ft : FlowTrack) (p : ℕ) (received : Timeval) : Except Fault FlowTrack :=
  let ft := ft.modifyFlow p fun f => { f with flowLast := received }
  match (ft.flowAt p).bind ft.expiryOf with
  | none => .error .pointer
  | some e => if e.expiresAt ≠ 0 then ft.flowUpdateExpiry p else .ok ft

/-- Count a fragment. -/
def countFragment (ft : FlowTrack) (frag : Bool) : FlowTrack :=
  if frag then { ft with fragPackets := ft.fragPackets + 1 } else ft

/-- The part of `process_packet` behind the tracking level: file the record `tmp` under its
flow. -/
def fileRecord (ft : FlowTrack) (tmp : Flow) (alloc : Alloc) (received : Timeval) :
    Except Fault (PpResult × FlowTrack) :=
  match ft.flowFind tmp with
  -- If a matching flow does not exist, create and insert one
  | none =>
    match ft.createFlow { tmp with flowStart := received } alloc with
    | (ft, none) => .ok (.mallocFail, ft)
    | (ft, some p) => do return (.ok, ← ft.touchFlow p received)
  -- Update flow statistics
  | some flow => do
    return (.ok, ← (ft.modifyFlow flow.ptr (addRecord tmp)).touchFlow flow.ptr received)

/-- `process_packet`. -/
def processPacket (ft : FlowTrack) (alloc : Alloc) (m : Mem) (af : ℤ) (caplen len : UInt32)
    (received : Timeval) : Except Fault (PpResult × FlowTrack) :=
  let ft := { ft with totalPackets := ft.totalPackets + 1 }
  match packetRecord m af caplen len with
  | none => .ok (.badPacket, { ft with badPackets := ft.badPackets + 1 })
  | some (tmp, frag) =>
    let ft := ft.countFragment frag
    ft.fileRecord (ft.maskRecord tmp) alloc received

/-! ## Expiring and deleting -/

/-- `force_expire`; `callocOk` tells whether the working array can be allocated. -/
def forceExpire (ft : FlowTrack) (callocOk : Bool) (numToExpire : UInt32) : FlowTrack :=
  if !callocOk then
    -- On malloc failure, expire ALL flows, changing the keys inside the tree.
    { ft with
      expiries := ft.expiries.map fun e => { e with expiresAt := 0, reason := .overflows }
      flowsForceExpired := ft.flowsForceExpired + UInt64.ofNat ft.expiries.length }
  else
    -- Make the list of flows to expire
    let expiryv := ft.expiries.take numToExpire.toNat
    let ft := expiryv.foldl (fun ft e => ft.rekey e 0 .overflows) ft
    { ft with flowsForceExpired := ft.flowsForceExpired + UInt64.ofNat expiryv.length }

/-- One iteration of the loop of `delete_all_flows`. -/
def deleteFlow (ft : FlowTrack) (flow : Flow) : Except Fault FlowTrack :=
  match flow.expiry with
  | none => .error .pointer
  | some p =>
    let ft := (ft.flowRemove flow.ptr).expiryRemove p
    .ok { ft with numFlows := ft.numFlows - 1 }

/-- `delete_all_flows`: the number of flows removed and the state after it. The loop takes the
successor of a node before removing it, so it walks the tree as it was at the start. -/
def deleteAllFlows (ft : FlowTrack) : Except Fault (ℤ × FlowTrack) := do
  return (ft.flows.length, ← ft.flows.foldlM deleteFlow ft)

end FlowTrack

end Softflowd
