import NetworkMonitoring.Foundations.FilledTable
import NetworkMonitoring.Softflowd.FlowTrack

/-!
# softflowd — packets reported by the emulator

`EmulatorInterface.c`: the emulator sends one text per packet and monitor, fifteen fields
separated by `#`, and `process_emulator_packet` files it under its flow and its monitor.

* `getEmulatorPacketPart` is the field reader. A `char *` into the message is the text from there
  on, so the separator found by one iteration is where the next one starts.
* Local variables the source reads without having set them are the fields of `Uninit`.
* A copy into a buffer that has no room for the text and its NUL is a `textBuffer` fault, and an
  access to a monitor table outside its bounds a `monitorTable` fault.
-/

namespace Softflowd

open Bytes CText Function InetText

/-- `MAX_EMULATOR_MESSAGE_PARTS`, the number of the last part. -/
def maxEmulatorMessageParts : ℕ := 14

/-- How a parsing function stops early. -/
inductive Stop where
  /-- It returns `-1`. -/
  | fail
  | fault (f : Fault)
  deriving DecidableEq, Repr

/-- What uninitialised memory holds when `process_emulator_packet` is called. -/
structure Uninit where
  /-- `frag` of `process_emulator_packet`. -/
  frag : ℤ := 0
  /-- `ip_off` of `emulator_ipv4_to_flowrec`. -/
  ipOff : UInt16 := 0
  /-- `ip_p` of `emulator_ipv4_to_flowrec`. -/
  ipP : UInt8 := 0
  icmpType : UInt8 := 0
  icmpCode : UInt8 := 0
  /-- The memory from `alreadyReceived` on, up to the next NUL. -/
  alreadyReceived : Text := []
  deriving DecidableEq, Repr

/-! ## Fields of a message -/

/-- The loop of `get_emulator_packet_part` at iteration `i`, with `n` more iterations to go and
`rest` the text behind `prev_sep_position`. -/
def partLoop (i : ℕ) : ℕ → Text → Except Stop Text
  | 0, rest =>
    if i = maxEmulatorMessageParts then .ok rest
    else match cut 35 rest with
      | none => .error .fail
      | some (part, _) => .ok part
  | n + 1, rest =>
    if i = maxEmulatorMessageParts then .ok rest
    else match cut 35 rest with
      | none => .error .fail
      | some (_, rest) => partLoop (i + 1) n rest

/-- `get_emulator_packet_part`. Part `0` subtracts the message from a NULL `strchr` result when
there is no separator; the other parts start their search behind the first character. -/
def getEmulatorPacketPart (pkt : Text) (partNumber : ℕ) : Except Stop Text :=
  if partNumber ≤ maxEmulatorMessageParts then
    if partNumber = 0 then
      match cut 35 pkt with
      | none => .error (.fault .pointer)
      | some (part, _) => .ok part
    else
      match pkt with
      | [] => .error (.fault .pointer)
      | _ :: rest => partLoop 0 partNumber rest
  else .error .fail

/-- `strcpy` into a `char` array of the given size. -/
def strcpy (size : ℕ) (s : Text) : Except Stop Text :=
  if s.length < size then .ok s else .error (.fault .textBuffer)

/-- `get_emulator_packet_part` into a zeroed `char` array of the given size that is then read as
a string. -/
def copyPart (size : ℕ) (pkt : Text) (partNumber : ℕ) : Except Stop Text := do
  strcpy size (← getEmulatorPacketPart pkt partNumber)

/-- A part that has to be an IPv4 address. -/
def addrPart (pkt : Text) (partNumber : ℕ) : Except Stop InAddr := do
  match inetPton (← copyPart 16 pkt partNumber) with
  | none => .error .fail
  | some a => .ok a

/-! ## From a message to a flow record -/

/-- `emulator_transport_to_flowrec`. -/
def emulatorTransportToFlowrec (flow : Flow) (pkt : Text) (protocol : UInt8) (ndx : Dir)
    (u : Uninit) : Except Stop Flow := do
  let tmpPacket ← strcpy 100 pkt
  let sport := htons (UInt16.ofInt (atoi (← copyPart 16 tmpPacket 6)))
  let dport := htons (UInt16.ofInt (atoi (← copyPart 16 tmpPacket 7)))
  if protocol = ipprotoTcp then
    let tmp ← copyPart 16 tmpPacket 13
    return { flow with
      port := update (update flow.port ndx sport) ndx.other dport
      -- the first character of the text, not its number
      tcpFlags := update flow.tcpFlags ndx (flow.tcpFlags ndx ||| tmp.headD 0) }
  else if protocol = ipprotoUdp then
    return { flow with port := update (update flow.port ndx sport) ndx.other dport }
  else if protocol = ipprotoIcmp then
    -- `icmp_type` and `icmp_code` are never set
    let icmp := htons (UInt16.ofNat (u.icmpType.toNat * 256 + u.icmpCode.toNat))
    return { flow with port := update (update flow.port ndx 0) ndx.other icmp }
  else
    return flow

/-- The protocol number, `*isfrag` and `ip_off` that `emulator_ipv4_to_flowrec` goes on with.
Only the TCP branch sets the last two. -/
def emulatorProtocol (tmpPacket : Text) (u : Uninit) : Except Stop (UInt8 × ℤ × UInt16) := do
  let tmp ← copyPart 16 tmpPacket 10
  if tmp = ascii "TCP" then
    let isfrag := atoi (← copyPart 20 tmpPacket 11)
    if isfrag = 1 then
      return (ipprotoTcp, isfrag, UInt16.ofInt (strtol (← copyPart 20 tmpPacket 12)))
    else
      return (ipprotoTcp, isfrag, u.ipOff)
  else if tmp = ascii "UDP" then
    return (ipprotoUdp, u.frag, u.ipOff)
  else if tmp = ascii "ICMP" then
    return (ipprotoIcmp, u.frag, u.ipOff)
  else
    return (u.ipP, u.frag, u.ipOff)

/-- `emulator_ipv4_to_flowrec`: flow record, `*isfrag` and `*ndxx`. -/
def emulatorIpv4ToFlowrec (flow : Flow) (pkt : Text) (len : UInt32) (af : ℤ) (u : Uninit) :
    Except Stop (Flow × ℤ × Dir) := do
  let tmpPacket ← strcpy 100 pkt
  let src ← addrPart tmpPacket 1
  let dst ← addrPart tmpPacket 2
  let (ipP, isfrag, ipOff) ← emulatorProtocol tmpPacket u
  let ndx := canonicalNdx src dst
  let asSrc ← copyPart 16 tmpPacket 8
  let asDst ← copyPart 16 tmpPacket 9
  let flow := { flow with
    af := af
    addr := update (update flow.addr ndx ((flow.addr ndx).setV4 src)) ndx.other
      ((flow.addr ndx.other).setV4 dst)
    protocol := ipP
    octets := update flow.octets ndx len
    packets := update flow.packets ndx 1
    asSrc := update flow.asSrc ndx (UInt32.ofInt (atoi asSrc))
    asDst := update flow.asDst ndx.other (UInt32.ofInt (atoi asDst)) }
  -- Don't try to examine higher level headers if not first fragment
  if isfrag ≠ 0 ∧ htons ipOff ≠ 0 then
    return (flow, isfrag, ndx)
  else
    return (← emulatorTransportToFlowrec flow pkt ipP ndx u, isfrag, ndx)

/-! ## Monitors -/

/-- The globals `emulator_monitors_adrs` and `nbr_monitors`. -/
structure Monitors where
  adrs : Fin maxEmulators → InAddr := fun _ _ => 0
  nbrMonitors : UInt32 := 0

/-- The first of the first `n` entries of a monitor table that holds the address `a`. -/
def slotOf (adrs : Fin maxEmulators → InAddr) (n : UInt32) (a : InAddr) :
    Option (Fin maxEmulators) :=
  FilledTable.firstSlot adrs n.toNat a

/-- `add_monitor`. The loop compares texts, and `inet_pton` writes the new entry only when it
accepts the text; the counter moves in any case. -/
def addMonitor (ms : Monitors) (ip : Text) : Except Fault Monitors :=
  if (List.finRange maxEmulators).any fun i =>
      i.val < ms.nbrMonitors.toNat ∧ inetNtoa (ms.adrs i) = ip then .ok ms
  -- The loop has read on behind the last entry.
  else if maxEmulators < ms.nbrMonitors.toNat then .error .monitorTable
  else match inetPton ip with
    | none => .ok { ms with nbrMonitors := ms.nbrMonitors + 1 }
    | some a =>
      if h : ms.nbrMonitors.toNat < maxEmulators then
        .ok { adrs := update ms.adrs ⟨ms.nbrMonitors.toNat, h⟩ a
              nbrMonitors := ms.nbrMonitors + 1 }
      else .error .monitorTable

/-- The monitor statistics of a flow that has just been created: the source takes the counters
of direction `0` in both cases. -/
def firstMonitor (ndx : Dir) (a : InAddr) (f : Flow) : Flow :=
  { f with
    emulatorMonitorAdr :=
      update f.emulatorMonitorAdr ndx (update (f.emulatorMonitorAdr ndx) 0 a)
    monitorStat := update f.monitorStat ndx
      (update (f.monitorStat ndx) 0 { octets := f.octets 0, packets := f.packets 0 })
    numberOfMonitors := update (update f.numberOfMonitors ndx 1) ndx.other 0 }

/-- File the record `tmp` of direction `ndx` under the monitor `a` of an existing flow. -/
def countMonitor (ndx : Dir) (a : InAddr) (tmp f : Flow) : Except Fault Flow :=
  match slotOf (f.emulatorMonitorAdr ndx) (f.numberOfMonitors ndx) a with
  -- The monitor already exist
  | some k =>
    let stat := f.monitorStat ndx k
    .ok { f with monitorStat := update f.monitorStat ndx (update (f.monitorStat ndx) k
      { octets := stat.octets + tmp.octets ndx, packets := stat.packets + tmp.packets ndx }) }
  | none =>
    if h : (f.numberOfMonitors ndx).toNat < maxEmulators then
      .ok { f with
        emulatorMonitorAdr := update f.emulatorMonitorAdr ndx
          (update (f.emulatorMonitorAdr ndx) ⟨(f.numberOfMonitors ndx).toNat, h⟩ a)
        monitorStat := update f.monitorStat ndx
          (update (f.monitorStat ndx) ⟨(f.numberOfMonitors ndx).toNat, h⟩
            { octets := tmp.octets ndx, packets := tmp.packets ndx })
        numberOfMonitors := update f.numberOfMonitors ndx (f.numberOfMonitors ndx + 1) }
    else .error .monitorTable

/-! ## Processing a message -/

/-- The state `process_emulator_packet` works on. -/
structure Tracker where
  ft : FlowTrack := {}
  monitors : Monitors := {}

/-- The arguments of a call of `process_emulator_packet`, with what its environment decides. -/
structure EmulatorCall where
  pkt : Text
  af : ℤ := afInet
  len : UInt32
  received : Timeval := {}
  uninit : Uninit := {}
  alloc : Alloc := {}

/-- Convert the packet to a flow identity. -/
def EmulatorCall.record (c : EmulatorCall) : Except Stop (Flow × ℤ × Dir) :=
  if c.af = afInet then emulatorIpv4ToFlowrec {} c.pkt c.len c.af c.uninit else .error .fail

/-- A record whose first and last packet is received at `t`. -/
def Flow.stamp (f : Flow) (t : Timeval) : Flow := { f with flowStart := t, flowLast := t }

/-- The branch of `process_emulator_packet` that creates a flow. -/
def createEmulatorFlow (ms : Monitors) (ft : FlowTrack) (tmp : Flow) (ndx : Dir)
    (c : EmulatorCall) : Except Fault (PpResult × Tracker) :=
  match ft.createFlow (tmp.stamp c.received) c.alloc with
  | (ft, none) => .ok (.mallocFail, ⟨ft, ms⟩)
  | (ft, some p) =>
    match copyPart 16 c.pkt 0 with
    | .error (.fault f) => .error f
    | .error .fail => .ok (.badPacket, ⟨ft, ms⟩)
    | .ok tmpEm =>
      match inetPton tmpEm with
      | none => .ok (.badPacket, ⟨ft, ms⟩)
      | some a => do
        return (.ok, ⟨ft.modifyFlow p (firstMonitor ndx a), ← addMonitor ms tmpEm⟩)

/-- What an update does to a flow when the packet has not been received before. -/
def addEmulatorRecord (tmp : Flow) (ndx : Dir) (received : Timeval) (f : Flow) : Flow :=
  { FlowTrack.addRecord tmp f with
    flowLast := received
    asSrc := update f.asSrc ndx (tmp.asSrc ndx)
    asDst := update f.asDst ndx.other (tmp.asDst ndx.other) }

/-- The branch of `process_emulator_packet` that updates the flow at address `p`. -/
def updateEmulatorFlow (ms : Monitors) (ft : FlowTrack) (flow tmp : Flow) (ndx : Dir)
    (c : EmulatorCall) : Except Fault (PpResult × Tracker) :=
  match copyPart 16 c.pkt 0 with
  | .error (.fault f) => .error f
  | .error .fail => .ok (.badPacket, ⟨ft, ms⟩)
  | .ok tmpEm => do
    let ms ← addMonitor ms tmpEm
    match inetPton tmpEm with
    | none => return (.badPacket, ⟨ft, ms⟩)
    | some a =>
      let flow' ← countMonitor ndx a tmp flow
      let ft := ft.modifyFlow flow.ptr fun _ => flow'
      match getEmulatorPacketPart c.pkt maxEmulatorMessageParts with
      | .error (.fault f) => .error f
      | .error .fail => return (.badPacket, ⟨ft, ms⟩)
      | .ok last =>
        -- `char alreadyReceived[1]`, read by `atoi` without a terminating NUL
        if 1 < last.length then .error .textBuffer
        else
          let ft :=
            if atoi (last ++ c.uninit.alreadyReceived.drop last.length) = 0 then
              ft.modifyFlow flow.ptr (addEmulatorRecord tmp ndx c.received)
            else ft
          return (.ok, ⟨← ft.flowUpdateExpiry flow.ptr, ms⟩)

/-- The tracking state after the packet counters have been moved. -/
def FlowTrack.counted (ft : FlowTrack) (frag : ℤ) : FlowTrack :=
  { ft with totalPackets := ft.totalPackets + 1 }.countFragment (frag ≠ 0)

/-- The part of `process_emulator_packet` behind the tracking level: file the record `tmp` under
its flow and its monitor. -/
def fileEmulatorRecord (ms : Monitors) (ft : FlowTrack) (tmp : Flow) (ndx : Dir)
    (c : EmulatorCall) : Except Fault (PpResult × Tracker) :=
  match ft.flowFind tmp with
  -- If a matching flow does not exist, create and insert one
  | none => createEmulatorFlow ms ft tmp ndx c
  | some flow =>
    match ft.expiryOf flow with
    | none => .error .pointer
    | some e =>
      if e.expiresAt ≠ 0 then updateEmulatorFlow ms ft flow tmp ndx c else .ok (.ok, ⟨ft, ms⟩)

/-- `process_emulator_packet`. -/
def processEmulatorPacket (s : Tracker) (c : EmulatorCall) : Except Fault (PpResult × Tracker) :=
  -- char tmpPacket[100]; strcpy (tmpPacket, pkt);
  if 100 ≤ c.pkt.length then .error .textBuffer
  else
    match c.record with
    | .error (.fault f) => .error f
    | .error .fail =>
      .ok (.badPacket, { s with ft := { s.ft with
        totalPackets := s.ft.totalPackets + 1, badPackets := s.ft.badPackets + 1 } })
    | .ok (tmp, frag, ndx) =>
      fileEmulatorRecord s.monitors (s.ft.counted frag) ((s.ft.counted frag).maskRecord tmp) ndx c

end Softflowd
