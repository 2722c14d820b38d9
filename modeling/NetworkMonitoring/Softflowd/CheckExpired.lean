import NetworkMonitoring.Softflowd.Emulator
import NetworkMonitoring.Softflowd.Export

/-!
# softflowd — the expiry scan

`check_expired` of `softflowd.c`: the scan of the expiry tree, the export of the flows it took out
and the statistics about them. The scan takes the successor of a node before it may remove the
node, so it visits the nodes of the tree as it was at the start.

`update_statistics` keeps the per-protocol sums in `double`; they are integers here.
-/

namespace Softflowd

open Function InetText

/-- The parameter `ex` of `check_expired`. -/
inductive ExpireMode where
  /-- `CE_EXPIRE_NORMAL`: normal expiry processing. -/
  | normal
  /-- `CE_EXPIRE_ALL`: expire all flows immediately. -/
  | all
  /-- `CE_EXPIRE_FORCED`: only expire force-expired flows. -/
  | forced
  deriving DecidableEq, Repr

/-! ## The scan -/

/-- Whether the scan takes the flow of an expiry event out of the table. -/
def Expiry.isDue (e : Expiry) (now : Timeval) (ex : ExpireMode) : Bool :=
  (e.expiresAt = 0 ∨ ex = .all ∨ (ex ≠ .forced ∧ (e.expiresAt.toNat : ℤ) < now.sec)) ∧
    e.expiresAt ≠ 1

/-- The reason under which an expired flow is counted. -/
def expiredReason (ft : FlowTrack) (flow : Flow) (e : Expiry) (ex : ExpireMode) : Reason :=
  if ex = .all then .flush
  else if ft.maximumLifetime ≠ 0 ∧
      flow.flowLast.sec - flow.flowStart.sec ≥ ft.maximumLifetime then .maxlife
  else e.reason

/-- Take an expired flow out of the table: `update_expiry_stats`, `FLOW_REMOVE` and
`EXPIRY_REMOVE`. -/
def FlowTrack.expireFlow (ft : FlowTrack) (flow : Flow) (e : Expiry) (ex : ExpireMode) :
    FlowTrack :=
  let reason := expiredReason ft flow e ex
  let ft := { ft with expired := update ft.expired reason (ft.expired reason + 1) }
  let ft := (ft.flowRemove flow.ptr).expiryRemove e.ptr
  { ft with numFlows := ft.numFlows - 1 }

/-- An expired flow: its expiry event is gone. -/
def Flow.retire (f : Flow) : Flow := { f with expiry := none }

/-- One iteration of the scan; the second component is the array `expired_flows`. `reallocOk`
tells whether the array can grow by the flow of this event. -/
def scanStep (now : Timeval) (ex : ExpireMode) (reallocOk : Expiry → Bool)
    (st : FlowTrack × List Flow) (e : Expiry) : Except Fault (FlowTrack × List Flow) :=
  if e.isDue now ex then
    match st.1.flowAt e.flow with
    | none => .error .pointer
    | some flow =>
      .ok (st.1.expireFlow flow e ex,
        -- Don't fatal on realloc failures
        if reallocOk e then st.2 ++ [flow.retire] else st.2)
  else .ok st

/-- The scan of `check_expired`: the table after it and the array `expired_flows`. -/
def scanExpired (now : Timeval) (ex : ExpireMode) (reallocOk : Expiry → Bool) (ft : FlowTrack) :
    Except Fault (FlowTrack × List Flow) :=
  ft.expiries.foldlM (scanStep now ex reallocOk) (ft, [])

/-! ## Exporting the expired flows -/

/-- The search for the slot of a flow that belongs to the monitor `a`. -/
def matchMonitor (d : Dir) (a : InAddr) (f : Flow) : Except Fault (Option (Fin maxEmulators)) :=
  match slotOf (f.emulatorMonitorAdr d) (f.numberOfMonitors d) a with
  | some n => .ok (some n)
  | none =>
    -- The loop has read on behind the last slot.
    if maxEmulators < (f.numberOfMonitors d).toNat then .error .monitorTable else .ok none

/-- Select a flow for the monitor `a`, found in slot `n`. -/
def selectFlow (a : InAddr) (n : Fin maxEmulators) (f : Flow) : Flow :=
  { f with
    selectedMonitor := (inetPton (inetNtoa a)).getD f.selectedMonitor
    selectedMonitorIndex := UInt16.ofNat n }

/-- Select a flow if the monitor `a` reported it in direction `d`. -/
def markFlow (d : Dir) (a : InAddr) (f : Flow) : Except Fault (Flow × Bool) := do
  match ← matchMonitor d a f with
  | none => return (f, false)
  | some n => return (selectFlow a n f, true)

/-- What the export loops of `check_expired` work on. -/
structure ExportState where
  ft : FlowTrack
  exporter : Exporter
  expired : List Flow
  /-- The variable `r`. -/
  r : ℤ := 0

/-- Select the flows the monitor `a` reported in direction `d` and send them. -/
def exportDirection (func : NetflowSendFunc) (a : InAddr) (st : ExportState) (d : Dir) :
    Except Fault ExportState := do
  let marked ← st.expired.mapM (markFlow d a)
  let (r, flowsExported, exporter) ← func ((marked.filter Prod.snd).map Prod.fst)
    st.ft.flowsExported st.ft.systemBootTime d.val st.exporter
  return {
    ft := { st.ft with
      flowsExported := flowsExported
      packetsSent := if r > 0 then st.ft.packetsSent + UInt64.ofInt r else st.ft.packetsSent }
    exporter := exporter
    expired := marked.map Prod.fst
    r := r }

/-- One iteration of the loop over the monitors: the In (0) flows, then the Out (1) flows. -/
def exportMonitor (func : NetflowSendFunc) (ms : Monitors) (st : ExportState) (m : ℕ) :
    Except Fault ExportState :=
  if h : m < maxEmulators then do
    exportDirection func (ms.adrs ⟨m, h⟩) (← exportDirection func (ms.adrs ⟨m, h⟩) st 0) 1
  else .error .monitorTable

/-- The export of the expired flows in emulator mode. -/
def exportMonitors (func : NetflowSendFunc) (ms : Monitors) (st : ExportState) :
    Except Fault ExportState :=
  (List.range ms.nbrMonitors.toNat).foldlM (exportMonitor func ms) st

/-- The export of the expired flows outside emulator mode. -/
def exportAll (func : NetflowSendFunc) (st : ExportState) : Except Fault ExportState := do
  let (r, flowsExported, exporter) ←
    func st.expired st.ft.flowsExported st.ft.systemBootTime (-1) st.exporter
  let ft := { st.ft with flowsExported := flowsExported }
  return { st with
    ft :=
      if r > 0 then { ft with packetsSent := ft.packetsSent + UInt64.ofInt r }
      else { ft with flowsDropped := ft.flowsDropped + UInt64.ofNat (st.expired.length * 2) }
    exporter := exporter
    r := r }

/-! ## The whole function -/

/-- `update_statistics`. -/
def updateStatistics (ft : FlowTrack) (flow : Flow) : FlowTrack :=
  { ft with
    flowsExpired := ft.flowsExpired + 1
    flowsPp := update ft.flowsPp flow.protocol (ft.flowsPp flow.protocol + 1)
    octetsPp := update ft.octetsPp flow.protocol
      (ft.octetsPp flow.protocol + (flow.octets 0 + flow.octets 1).toUInt64)
    packetsPp := update ft.packetsPp flow.protocol
      (ft.packetsPp flow.protocol + (flow.packets 0 + flow.packets 1).toUInt64) }

/-- The state of the program: flow tracking, the monitors and the exporter. -/
structure Daemon where
  tracker : Tracker := {}
  exporter : Exporter := {}

/-- The parameters of `check_expired` and what its environment decides. -/
structure ExpiryCall where
  usingEmulator : Bool := false
  /-- The send function of `target`; `none` when there is no target. -/
  target : Option NetflowSendFunc := none
  ex : ExpireMode := .normal
  now : Timeval := {}
  reallocOk : Expiry → Bool := fun _ => true

/-- Send the expired flows to the target, if there is one. -/
def exportExpired (c : ExpiryCall) (ms : Monitors) (st : ExportState) :
    Except Fault ExportState :=
  match c.target with
  | none => .ok st
  | some func => if c.usingEmulator then exportMonitors func ms st else exportAll func st

/-- `check_expired`. -/
def checkExpired (c : ExpiryCall) (s : Daemon) : Except Fault (ℤ × Daemon) := do
  let (ft, expired) ← scanExpired c.now c.ex c.reallocOk s.tracker.ft
  if expired.isEmpty then
    return (0, { s with tracker := { s.tracker with ft := ft } })
  else
    let st ← exportExpired c s.tracker.monitors
      { ft := ft, exporter := s.exporter, expired := expired }
    return (if st.r = -1 then -1 else (expired.length : ℤ),
      { tracker := { s.tracker with ft := st.expired.foldl updateStatistics st.ft }
        exporter := st.exporter })

end Softflowd
