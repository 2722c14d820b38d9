import NetworkMonitoring.Flowd.Authorisation
import NetworkMonitoring.Flowd.OutputQueue
import NetworkMonitoring.Pipeline.FlowReports

/-!
# flowd — the main loop

`flowd_mainloop` of `flowd.c`, with `process_flow`, `receive_many` and `process_input_queue`. A
round closes the logs and asks the monitor for the configuration when a signal has asked for that,
opens the logs, receives the datagrams that are there, processes them and flushes the output queue.

* The state has the variables of the program, what has been written to the logs and to the log
  socket, what has been handed to `Add_flow`, and the `trace` of what has happened.
* What the environment decides in a round is a `Round`: the signals, the answers of the monitor, the
  datagrams, the outcomes of the allocations and the contents of variables that nothing has
  written to.
* `output_flow_flush` ends the process when it cannot write; the rounds here are those that can.
-/

namespace Flowd

open Bytes CText ErrorLoops

/-! ## State -/

/-- `struct flowd_config`, by what the main loop reads of it. -/
structure MainConfig extends ProcessConfig where
  /-- `allowed_devices`. -/
  devices : FlowdConfig := {}
  storeMask : UInt32
  /-- Whether `log_file` is set. -/
  logFile : Bool := true
  /-- Whether `log_socket` is set. -/
  logSocket : Bool := false

/-- The ways in which the main loop stops within a round. -/
inductive MainStop where
  | fault (f : Fault)
  | output (stop : OutputStop)
  /-- `store_format_flow` goes wrong. -/
  | format
  /-- `logerrx` ends the process. -/
  | exit
  deriving DecidableEq, Repr

/-- What happens in a round. -/
inductive LoopEvent where
  /-- `receive_packet` has queued a packet. -/
  | queued (fp : FlowPacket)
  /-- `process_packet` has been called for a packet, and hands records to `process_flow`. -/
  | processed (fp : FlowPacket) (flows : List StoreFlowComplete)
  /-- `process_flow` is called with a record. -/
  | flow (conf : MainConfig) (flow : StoreFlowComplete)
  /-- The log is opened. -/
  | opened
  /-- The log is closed. -/
  | closed

/-- What the main loop works on. `output.log` has what has been written to the log that is open, and
`closedLogs` what has been written to those before. -/
structure Mainloop where
  conf : MainConfig
  collector : Collector
  output : OutputState := {}
  logFd : ℤ := -1
  logSocket : ℤ := -1
  closedLogs : List (List UInt8) := []
  /-- What has been sent to the log socket. -/
  sent : List (List UInt8) := []
  /-- What has been handed to `Add_flow`. -/
  reports : List Estimation.Report := []
  logsockFirstError : ℤ := 0
  logsockNumErrors : ℤ := 0
  reopenFlag : Bool := false
  trace : List LoopEvent := []

/-! ## What the environment decides -/

/-- The outcome of a `send`. -/
inductive SendResult where
  | ok
  /-- `errno` is `ENOBUFS`. -/
  | noBufs
  | failed
  deriving DecidableEq, Repr

/-- About a call of `process_flow`. -/
structure FlowCall where
  /-- The local variables before they are assigned. -/
  fl : Estimation.Report
  locals : FieldVars
  allocs : OutputAllocs := {}
  /-- For the second attempt to queue a record. -/
  allocs' : OutputAllocs := {}
  send : SendResult := .ok
  now : ℤ := 0

/-- About a call of `receive_packet`. -/
structure RecvCall where
  allocs : Allocs := {}
  heap : Mem := fun _ => 0
  /-- What `recvfrom` returns, or `none`. -/
  recv : Option Datagram
  /-- What the caller finds where the function returns no value. -/
  unset : ℤ := 0

/-- About a call of `process_packet`. -/
structure PacketCall where
  mem : Unwritten
  flows : ℕ → FlowCall

/-- What `poll` finds. -/
inductive Poll where
  /-- Nothing, or a signal has come. -/
  | interrupted
  | failed
  | monitorClosed
  /-- The listening sockets that are ready, each with its calls of `receive_packet`. -/
  | ready (socks : List (ℕ → RecvCall))

/-- About a round. -/
structure Round where
  now : ℤ := 0
  /-- A signal sets `reopen_flag`. -/
  reopen : Bool := false
  /-- The answer to `client_reconfigure`, if a signal has set `reconf_flag`. -/
  reconf : Option (Option MainConfig) := none
  /-- What `start_log` and `client_open_socket` return, or `none`. `start_log` also fails for a file
  with the header of a legacy store. -/
  logFd : Option ℕ := some 5
  logSocket : Option ℕ := none
  poll : Poll := .interrupted
  packets : ℕ → PacketCall

namespace Mainloop

/-! ## process_flow -/

/-- The log socket in `process_flow`. Its failures are tracked so that it can be reopened. -/
def sendRecord (c : FlowCall) (s : Mainloop) (fbuf : List UInt8) : Mainloop :=
  if s.logSocket ≠ -1 ∧ c.send ≠ .ok then
    if c.send = .noBufs then s
    else { s with
      logsockFirstError := if s.logsockFirstError = 0 then c.now else s.logsockFirstError
      logsockNumErrors := s.logsockNumErrors + 1 }
  else
    -- Start to disregard errors after success
    let numErrors :=
      if s.logsockNumErrors > 0 then s.logsockNumErrors - 1 else s.logsockNumErrors
    { s with
      sent := if s.logSocket ≠ -1 then s.sent ++ [fbuf] else s.sent
      logsockNumErrors := numErrors
      logsockFirstError := if numErrors = 0 then 0 else s.logsockFirstError }

section
variable (localtime : ℕ → Tm) (inet6Text : Xaddr → Text) (usable : ℕ) (limits : PeerLimits)

/-- `process_flow`. -/
def processFlow (c : FlowCall) (s : Mainloop) (flow : StoreFlowComplete) :
    Except MainStop Mainloop := do
  let conf := s.conf
  let s := { s with trace := s.trace ++ [.flow conf flow] }
  if flow.srcAddr.af ≠ flow.dstAddr.af then
    return s
  let filtered := filterFlow localtime (prepareFlow flow) conf.filterList
  -- the rules count their evaluations, matches and wins
  let s := { s with conf := { conf with filterList := filtered.filter } }
  match reportFlow localtime inet6Text usable conf.toProcessConfig c.fl flow with
  | none => throw .format
  | some reports =>
    let s := { s with reports := s.reports ++ reports }
    if filtered.action = ffActionDiscard then
      return s
    let output ← (Flowd.processFlow s.logFd c.locals conf.storeMask c.allocs c.allocs' s.output
      filtered.flow).mapError .output
    -- the record is sent to the log socket as well
    let r := storeFlowSerialiseMasked c.locals filtered.flow conf.storeMask 1024
    return { s with output := output }.sendRecord c r.2

/-! ## Receiving and processing -/

/-- `INPUT_MAX_PACKET_PER_FD`. -/
def inputMaxPacketPerFd : ℕ := 512

/-- `receive_packet`. -/
def receivePacket (c : RecvCall) (s : Mainloop) : Except MainStop (ℤ × Mainloop) := do
  let (collector, ret) ←
    (s.collector.receivePacket limits c.allocs c.heap c.recv).mapError .fault
  let queued := collector.inputQueue.drop s.collector.inputQueue.length
  return (ret.getD c.unset,
    { s with collector := collector, trace := s.trace ++ queued.map .queued })

/-- `receive_many`, with so many iterations left; the next one is iteration `i`. -/
def receiveMany (calls : ℕ → RecvCall) : ℕ → ℕ → Mainloop → Except MainStop Mainloop
  | 0, _, s => .ok s
  | left + 1, i, s => do
    let (ret, s) ← s.receivePacket limits (calls i)
    if ret = 0 then
      return s
    receiveMany calls left (i + 1) s

/-- `process_packet`, for the packet at the head of the queue. -/
def processPacket (c : PacketCall) (s : Mainloop) : Except MainStop Mainloop := do
  let (collector, flows) ← (s.collector.processPacket limits c.mem).mapError .fault
  let taken := s.collector.inputQueue.take 1
  let s := { s with
    collector := collector
    trace := s.trace ++ taken.map (.processed · flows) }
  flows.zipIdx.foldlM
    (fun s p => s.processFlow localtime inet6Text usable (c.flows p.2) p.1) s

/-- `process_input_queue`. -/
def processInputQueue (packets : ℕ → PacketCall) : ℕ → ℕ → Mainloop → Except MainStop Mainloop
  | fuel, i, s =>
    if s.collector.inputQueue = [] then .ok s
    else
      match fuel with
      | 0 => .error (.fault .noReturn)
      | fuel + 1 => do
        let s ← s.processPacket localtime inet6Text usable limits (packets i)
        processInputQueue packets fuel (i + 1) s

end

/-! ## The round -/

/-- `LOGSOCK_REOPEN_ERROR_COUNT`. -/
def logsockReopenErrorCount : ℤ := 128

/-- `LOGSOCK_REOPEN_DELAY`. -/
def logsockReopenDelay : ℤ := 60

/-- The log socket is closed because of frequent errors. -/
def checkLogSocket (now : ℤ) (s : Mainloop) : Mainloop :=
  if s.logSocket ≠ -1 ∧ s.logsockNumErrors > logsockReopenErrorCount ∧
      now > s.logsockFirstError + logsockReopenDelay then
    { s with logSocket := -1, logsockFirstError := 0, logsockNumErrors := 0 }
  else s

/-- The log is closed, if it is open. -/
def closeLog (s : Mainloop) : Mainloop :=
  if s.logFd ≠ -1 then
    { s with
      logFd := -1
      output := { s.output with log := [] }
      closedLogs := s.closedLogs ++ [s.output.log]
      trace := s.trace ++ [.closed] }
  else s

/-- The logs are closed because a signal has asked for it. -/
def reopenLogs (reopen : Bool) (s : Mainloop) : Mainloop :=
  let s := { s with reopenFlag := s.reopenFlag || reopen }
  if s.reopenFlag = true ∧ (s.logFd ≠ -1 ∨ s.logSocket ≠ -1) then
    { s.closeLog with logSocket := -1, reopenFlag := false }
  else s

/-- Reconfiguration. -/
def reconfigure (s : Mainloop) : Option (Option MainConfig) → Except MainStop Mainloop
  | none => .ok s
  | some none => .error .exit
  | some (some conf) => .ok { s with
      conf := conf
      collector := { s.collector with
        conf := conf.devices
        peers := s.collector.peers.scrub conf.devices } }

/-- `start_log`, where there is no log. -/
def startLog (fd : Option ℕ) (s : Mainloop) : Except MainStop Mainloop :=
  if s.logFd = -1 ∧ s.conf.logFile = true then
    match fd with
    | none => .error .exit
    | some fd => .ok { s with logFd := fd, trace := s.trace ++ [.opened] }
  else .ok s

/-- `start_socket`, where there is no log socket. -/
def startSocket (fd : Option ℕ) (s : Mainloop) : Except MainStop Mainloop :=
  if s.logSocket = -1 ∧ s.conf.logSocket = true then
    match fd with
    | none => .error .exit
    | some fd => .ok { s with logSocket := fd }
  else .ok s

/-- `output_flow_flush`. -/
def flush (s : Mainloop) : Mainloop := { s with output := outputFlowFlush s.logFd s.output }

section
variable (localtime : ℕ → Tm) (inet6Text : Xaddr → Text) (usable : ℕ) (limits : PeerLimits)

/-- One round of `flowd_mainloop`. -/
def round (r : Round) (s : Mainloop) : Except MainStop Mainloop := do
  let s := (s.checkLogSocket r.now).reopenLogs r.reopen
  let s ← s.reconfigure r.reconf
  let s ← s.startLog r.logFd
  let s ← s.startSocket r.logSocket
  match r.poll with
  | .interrupted => return s
  | .failed => throw .exit
  -- `exit_flag` is set, and the loop ends
  | .monitorClosed => return s
  | .ready socks =>
    let s ← socks.foldlM
      (fun s calls => s.receiveMany limits calls inputMaxPacketPerFd 0) s
    let s ← s.processInputQueue localtime inet6Text usable limits r.packets
      s.collector.inputQueue.length 0
    return s.flush

/-- The states in which a round begins or the loop is left. -/
inductive Run : Mainloop → Prop where
  | start (conf : MainConfig) : Run { conf := conf, collector := { conf := conf.devices } }
  | round {s s' : Mainloop} (r : Round) :
      Run s → s.round localtime inet6Text usable limits r = .ok s' → Run s'

end

end Mainloop

end Flowd
