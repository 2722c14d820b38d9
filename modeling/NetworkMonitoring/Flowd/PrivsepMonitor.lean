import NetworkMonitoring.Flowd.PrivsepTransfer
import Mathlib.Logic.Relation

/-!
# flowd — the monitor and the collector

`privsep.c`: flowd is two processes, the monitor, which keeps its privileges, and the collector, a
client of it. Over a pair of sockets the client asks for its log, for the socket it logs to, and
for a new configuration, and waits for the answer.

* `readConfig` is how the monitor reads the configuration file, in a process of its own.
* `System` is the two processes and what is on its way between them. `MonitorStep` are the steps of
  the monitor, `ClientReads` those of the client when it reads, and `Spontaneous` what either of
  them may do besides. They take turns in any order.
* A descriptor stands for what it is open on: it has the same number in both processes.
-/

namespace Flowd.Privsep

open Bytes Receivers

/-! ## Descriptors on the socket -/

/-- `send_fd`: a byte, and beside it the descriptor, here behind it. -/
def sendFd (fd : Int32) : List UInt8 := 0 :: leInt fd

/-- `receive_fd`, which ends the process when there is none. -/
def receiveFd (chunk : ℕ → ℕ) : Recv Int32 := do
  let bs ← recvAll chunk 5 .exits
  return ((do skip 1; readInt).run bs).1

/-! ## The configuration file -/

/-- A configuration that `parse_config` accepts. `yylex` has 8096 bytes for a string, and an `u_int`
counts the elements of a queue. -/
structure ParsedConfig extends FlowdConfig where
  log : logFile ≠ none ∨ logSocket ≠ none
  pid_file : pidFile ≠ none
  listens : listenAddrs ≠ []
  no_descriptors : ∀ la ∈ listenAddrs, la.fd = -1
  strings : ∀ s, logFile = some s ∨ logSocket = some s ∨ pidFile = some s → s.bytes.length < 8096
  counted : listenAddrs.length < 2 ^ 32 ∧ filterList.length < 2 ^ 32 ∧
    allowedDevices.length < 2 ^ 32 ∧ joinGroups.length < 2 ^ 32

/-- `child_get_config` with what the parser makes of the file; `none` is everything that fails
before the child sends the configuration. -/
def childGetConfig (chunk : ℕ → ℕ) (mem : SenderMemory) (parsed : Option ParsedConfig) :
    Except Stop FlowdConfig :=
  match parsed with
  | none => .error .fails
  | some p =>
    match sendConfig (fun _ => .error .exits) mem p.toFlowdConfig with
    -- the child ends before it sends the length of a string, for which the parent waits
    | .error _ => .error .exits
    | .ok sent =>
      match (recvConfig chunk (throw .exits)).exec sent { conf := {} } with
      | (.error stop, _) => .error stop
      | (.ok _, (_, s)) => .ok s.conf

/-- `FLOWD_OPT_DONT_FORK|FLOWD_OPT_VERBOSE|FLOWD_OPT_INSECURE`. -/
def keptOpts : UInt32 := 7

/-- `read_config` with the options of the old configuration. -/
def readConfig (chunk : ℕ → ℕ) (mem : SenderMemory) (parsed : Option ParsedConfig)
    (opts : UInt32) : Except Stop FlowdConfig := do
  let conf ← childGetConfig chunk mem parsed
  return { conf with opts := conf.opts ||| (opts &&& keptOpts) }

/-! ## Listening -/

/-- A listening socket, and the groups it has been asked to join. -/
structure Socket where
  fd : Int32
  addr : Xaddr
  port : UInt16
  bufsiz : UInt64
  groups : List JoinGroup
  deriving DecidableEq

/-- `open_listener`; a group that cannot be joined is no error. -/
def openListener (groups : List JoinGroup) (la : ListenAddr) : Socket where
  fd := la.fd
  addr := la.addr
  port := la.port
  bufsiz := la.bufsiz
  groups := groups.filter fun jg => jg.addr.af == la.addr.af

/-- The loop that opens the listeners, up to the first that fails: `fds` are their descriptors. -/
def FlowdConfig.opened (conf : FlowdConfig) (fds : List Int32) : FlowdConfig :=
  { conf with
    listenAddrs := (conf.listenAddrs.zip fds).map fun p => { p.1 with fd := p.2 } }

/-- The loop that closes the listeners. -/
def FlowdConfig.closed (conf : FlowdConfig) : FlowdConfig :=
  { conf with listenAddrs := conf.listenAddrs.map fun la => { la with fd := -1 } }

/-- The configuration as it is without the counters of the filter rules. -/
def FlowdConfig.uncounted (conf : FlowdConfig) : FlowdConfig :=
  { conf with filterList := conf.filterList.map FilterRule.uncounted }

/-- The sockets of the listeners of a configuration. -/
def FlowdConfig.listeners (conf : FlowdConfig) (groups : List JoinGroup) : List Socket :=
  conf.listenAddrs.map (openListener groups)

/-! ## Requests -/

/-- `C2M_MSG_OPEN_LOG`, `C2M_MSG_OPEN_SOCKET` and `C2M_MSG_RECONFIGURE`. -/
inductive Request where
  | openLog
  | openSocket
  | reconfigure
  deriving DecidableEq, Repr

def Request.msg : Request → UInt32
  | .openLog => 1
  | .openSocket => 2
  | .reconfigure => 3

/-- What the client writes. -/
def Request.bytes (r : Request) : List UInt8 := le32 r.msg

/-- The name of what a request asks to open. -/
def FlowdConfig.logName (conf : FlowdConfig) : Request → Option CString
  | .openLog => conf.logFile
  | .openSocket => conf.logSocket
  | .reconfigure => none

/-! ## The processes -/

/-- Where the monitor is. -/
inductive MonitorAt where
  /-- In the `read` of `privsep_master`. -/
  | reads
  /-- In `answer_reconfigure`, with bytes to write, and the new configuration if there is one. -/
  | writes (rest : List UInt8) (newconf : Option FlowdConfig)
  /-- Behind `exit`, with or without the call of `unlink` in front of it. -/
  | exited (unlinked : Bool)
  deriving DecidableEq

/-- Where the client is. -/
inductive ClientAt where
  /-- In `flowd_mainloop`. -/
  | loops
  /-- In the first read behind a request. -/
  | awaits (r : Request)
  /-- In `recv_config`. -/
  | receives
  | exited
  deriving DecidableEq, Repr

/-- The monitor with its configuration, and the client. `sockets` are the listening sockets, as long
as both processes run, `pidFiles` the names under which there is a file with the process id, and
`older` the configurations the monitor has had before, the last one first. -/
structure System where
  conf : FlowdConfig
  collector : Collector
  monitor : MonitorAt := .reads
  client : ClientAt := .loops
  logFd : Int32 := -1
  logSocket : Int32 := -1
  toMonitor : List UInt8 := []
  toClient : List UInt8 := []
  sockets : List Socket
  pidFiles : List CString
  older : List FlowdConfig := []
  deriving DecidableEq

namespace System

/-- The monitor ends; `unlinks` tells whether it removes the file with its process id. -/
def monitorExits (s : System) (unlinks : Bool) : System :=
  { s with
    monitor := .exited unlinks
    pidFiles := if unlinks then s.pidFiles.filter (some · ≠ s.conf.pidFile) else s.pidFiles }

/-- The end of `answer_reconfigure`, when the new configuration has been sent. -/
def replace (s : System) (newconf : FlowdConfig) : System :=
  { s with
    conf := (replaceConf { conf := s.conf } newconf.closed).conf
    older := s.conf :: s.older
    monitor := .reads }

/-- `write_pid_file`. -/
def writePidFile (s : System) : System :=
  { s with pidFiles := s.conf.pidFile.toList ++ s.pidFiles }

/-- The descriptor that a request is for, in the main loop. -/
def logOf (s : System) : Request → Int32
  | .openLog => s.logFd
  | .openSocket => s.logSocket
  | .reconfigure => -1

/-- Descriptors for new sockets. -/
structure Fresh (s : System) (fds : List Int32) : Prop where
  nodup : fds.Nodup
  valid : -1 ∉ fds
  unused : ∀ sock ∈ s.sockets, sock.fd ∉ fds

/-- What the client reads does not come to its end. -/
def Starved (chunk : ℕ → ℕ) (s : System) : Prop :=
  match s.client with
  | .awaits .reconfigure => s.toClient.length < 4
  | .awaits _ => ∃ stop out, (receiveFd chunk).exec s.toClient s.collector = (.error stop, out)
  | .receives =>
    ∃ stop out, (recvConfig chunk (receiveFd chunk)).exec s.toClient s.collector =
      (.error stop, out)
  | _ => False

section

variable (chunk : ℕ → ℕ) (mem : SenderMemory)

/-- The steps of `privsep_master`. -/
inductive MonitorStep : System → System → Prop
  /-- `answer_open_log` and `answer_open_socket`. -/
  | passLog {s : System} {r : Request} {rest : List UInt8} {fd : Int32} : s.monitor = .reads →
      s.toMonitor = r.bytes ++ rest → s.conf.logName r ≠ none → fd ≠ -1 →
      MonitorStep s { s with toMonitor := rest, toClient := s.toClient ++ sendFd fd }
  /-- They return -1. -/
  | logFails {s : System} {r : Request} {rest : List UInt8} : s.monitor = .reads →
      s.toMonitor = r.bytes ++ rest → s.conf.logName r ≠ none →
      MonitorStep s (s.monitorExits true)
  /-- They call `logerr` or `logerrx`, as they do when there is no name. -/
  | logExits {s : System} {r : Request} {rest : List UInt8} : s.monitor = .reads →
      s.toMonitor = r.bytes ++ rest → r ≠ .reconfigure → MonitorStep s (s.monitorExits false)
  | unknown {s : System} {what : UInt32} {rest : List UInt8} : s.monitor = .reads →
      s.toMonitor = le32 what ++ rest → (∀ r : Request, r.msg ≠ what) →
      MonitorStep s { s with toMonitor := rest }
  /-- `answer_reconfigure` up to its first `write`. -/
  | reconfigure {s : System} {rest sent : List UInt8} {parsed : Option ParsedConfig}
      {newconf : FlowdConfig} {fds : List Int32} : s.monitor = .reads →
      s.toMonitor = Request.reconfigure.bytes ++ rest →
      readConfig chunk mem parsed (s.conf.opts &&& keptOpts) = .ok newconf →
      fds.length = newconf.listenAddrs.length → s.Fresh fds →
      sendConfig (fun fd => .ok (sendFd fd)) mem (newconf.opened fds) = .ok sent →
      MonitorStep s { s with
        toMonitor := rest
        monitor := .writes (le32 1 ++ sent) (some (newconf.opened fds))
        sockets := s.sockets ++ (newconf.opened fds).listeners s.conf.joinGroups }
  /-- `send_config` does not get to its end, with some bytes written. -/
  | sendStops {s : System} {rest written : List UInt8} {parsed : Option ParsedConfig}
      {newconf : FlowdConfig} {fds : List Int32} {stop : Stop} (unlinks : Bool) :
      s.monitor = .reads → s.toMonitor = Request.reconfigure.bytes ++ rest →
      readConfig chunk mem parsed (s.conf.opts &&& keptOpts) = .ok newconf →
      fds.length = newconf.listenAddrs.length → s.Fresh fds →
      sendConfig (fun fd => .ok (sendFd fd)) mem (newconf.opened fds) = .error stop →
      MonitorStep s
        (monitorExits { s with toMonitor := rest, toClient := s.toClient ++ written } unlinks)
  /-- The configuration has errors. -/
  | badConfig {s : System} {rest : List UInt8} {parsed : Option ParsedConfig} :
      s.monitor = .reads → s.toMonitor = Request.reconfigure.bytes ++ rest →
      readConfig chunk mem parsed (s.conf.opts &&& keptOpts) = .error .fails →
      MonitorStep s { s with toMonitor := rest, monitor := .writes (le32 0) none }
  /-- One of the listeners cannot be opened. -/
  | badListener {s : System} {rest : List UInt8} {parsed : Option ParsedConfig}
      {newconf : FlowdConfig} {fds : List Int32} : s.monitor = .reads →
      s.toMonitor = Request.reconfigure.bytes ++ rest →
      readConfig chunk mem parsed (s.conf.opts &&& keptOpts) = .ok newconf →
      fds.length < newconf.listenAddrs.length → s.Fresh fds →
      MonitorStep s { s with
        toMonitor := rest
        monitor := .writes (le32 0) none
        sockets := s.sockets ++ (newconf.opened fds).listeners s.conf.joinGroups }
  /-- `privsep_read_string` ends the monitor. -/
  | readExits {s : System} {rest : List UInt8} {parsed : Option ParsedConfig} :
      s.monitor = .reads → s.toMonitor = Request.reconfigure.bytes ++ rest →
      readConfig chunk mem parsed (s.conf.opts &&& keptOpts) = .error .exits →
      MonitorStep s (s.monitorExits false)
  | write {s : System} {bs rest : List UInt8} {newconf : Option FlowdConfig} : bs ≠ [] →
      s.monitor = .writes (bs ++ rest) newconf →
      MonitorStep s { s with monitor := .writes rest newconf, toClient := s.toClient ++ bs }
  | writeFails {s : System} {rest : List UInt8} {newconf : Option FlowdConfig} (unlinks : Bool) :
      s.monitor = .writes rest newconf → rest ≠ [] → MonitorStep s (s.monitorExits unlinks)
  /-- The name of the file with the process id is the old one. -/
  | replace {s : System} {newconf : FlowdConfig} : s.monitor = .writes [] (some newconf) →
      s.conf.pidFile = newconf.pidFile → MonitorStep s (s.replace newconf)
  /-- It is another one, and `rewrite_pidfile` is set. -/
  | replacePidFile {s : System} {newconf : FlowdConfig} : s.monitor = .writes [] (some newconf) →
      s.conf.pidFile ≠ newconf.pidFile → MonitorStep s (s.replace newconf).writePidFile
  | pidFileFails {s : System} {newconf : FlowdConfig} : s.monitor = .writes [] (some newconf) →
      s.conf.pidFile ≠ newconf.pidFile → MonitorStep s ((s.replace newconf).monitorExits true)
  /-- `answer_reconfigure` returns -1 when it has told so. -/
  | refused {s : System} : s.monitor = .writes [] none → MonitorStep s (s.monitorExits true)
  /-- The client has ended: there is nothing more to read, or `child_exited` is set. -/
  | eof {s : System} : s.monitor = .reads → s.client = .exited →
      MonitorStep s (s.monitorExits true)

/-- What the client does when it has something to read, or finds that nothing will come. -/
inductive ClientReads : System → System → Prop
  /-- `client_open_log` and `client_open_socket`. -/
  | log {s : System} {r : Request} {fd : Int32} {rest : List UInt8} {c : Collector} :
      s.client = .awaits r → r ≠ .reconfigure →
      (receiveFd chunk).exec s.toClient s.collector = (.ok fd, (rest, c)) →
      ClientReads s { s with
        client := if fd = -1 then .exited else .loops
        toClient := rest
        logFd := if r = .openLog then fd else s.logFd
        logSocket := if r = .openSocket then fd else s.logSocket }
  /-- `client_reconfigure` reads `ok`. -/
  | ok {s : System} {v : UInt32} {rest : List UInt8} : s.client = .awaits .reconfigure →
      s.toClient = le32 v ++ rest →
      ClientReads s { s with
        client := if v = 0 then .exited else .receives, toClient := rest }
  | config {s : System} {ret : ℤ} {rest : List UInt8} {c : Collector} : s.client = .receives →
      (recvConfig chunk (receiveFd chunk)).exec s.toClient s.collector = (.ok ret, (rest, c)) →
      ClientReads s { s with client := .loops, toClient := rest, collector := c }
  /-- `recv_config` does not return 0, whatever comes. -/
  | badConfig {s : System} : s.client = .receives →
      (∀ more, ∃ stop out,
        (recvConfig chunk (receiveFd chunk)).exec (s.toClient ++ more) s.collector =
          (.error stop, out)) →
      ClientReads s { s with client := .exited }
  | eof {s : System} {unlinked : Bool} : s.monitor = .exited unlinked → s.Starved chunk →
      ClientReads s { s with client := .exited }
  /-- The main loop finds that the monitor has exited. -/
  | monitorClosed {s : System} {unlinked : Bool} : s.monitor = .exited unlinked →
      s.client = .loops → ClientReads s { s with client := .exited }

/-- A process goes on with what it is at. -/
def Work (s t : System) : Prop := s.MonitorStep chunk mem t ∨ s.ClientReads chunk t

end

/-- What else may happen. -/
inductive Spontaneous : System → System → Prop
  /-- The logs are closed after a signal or errors. -/
  | reopen {s : System} : s.client = .loops →
      Spontaneous s { s with logFd := -1, logSocket := -1 }
  | request {s : System} {r : Request} : s.client = .loops → s.collector.conf.logName r ≠ none →
      s.logOf r = -1 →
      Spontaneous s { s with client := .awaits r, toMonitor := s.toMonitor ++ r.bytes }
  /-- `process_flow` hands a flow to `filter_flow`, which counts in the rules. -/
  | filters {s : System} (localtime : ℕ → Tm) (flow : StoreFlowComplete) : s.client = .loops →
      Spontaneous s { s with
        collector := { s.collector with
          conf := { s.collector.conf with
            filterList :=
              (filterFlow localtime flow s.collector.conf.filterList).filter } } }
  /-- `client_reconfigure` up to its first `read`. -/
  | reconfigure {s : System} : s.client = .loops →
      Spontaneous s { s with
        client := .awaits .reconfigure
        toMonitor := s.toMonitor ++ Request.reconfigure.bytes
        collector := {
          conf := s.collector.conf.closed
          closed := freeListenAddrs s.collector.conf.listenAddrs s.collector.closed }
        sockets := s.sockets.filter fun sock =>
          sock.fd ∉ s.collector.conf.listenAddrs.map ListenAddr.fd }
  /-- A signal or an error ends the client. -/
  | clientEnds {s : System} : s.client ≠ .exited → Spontaneous s { s with client := .exited }
  /-- The monitor is killed. -/
  | monitorKilled {s : System} : (∀ unlinked, s.monitor ≠ .exited unlinked) →
      Spontaneous s (s.monitorExits false)

/-- A step of either process. -/
def Step (chunk : ℕ → ℕ) (mem : SenderMemory) (s t : System) : Prop :=
  s.Work chunk mem t ∨ s.Spontaneous t

/-- flowd at its start: the configuration has been read, the listeners are open, and the monitor
has let go of them and written the file with its process id. -/
def Initial (chunk : ℕ → ℕ) (mem : SenderMemory) (s : System) : Prop :=
  ∃ (parsed : Option ParsedConfig) (opts : UInt32) (conf : FlowdConfig) (fds : List Int32),
    readConfig chunk mem parsed opts = .ok conf ∧ fds.length = conf.listenAddrs.length ∧
    fds.Nodup ∧ -1 ∉ fds ∧
    s = {
      conf := (conf.opened fds).closed
      collector := { conf := conf.opened fds }
      sockets := (conf.opened fds).listeners conf.joinGroups
      pidFiles := conf.pidFile.toList }

/-- The states of the runs of flowd. -/
def Reachable (chunk : ℕ → ℕ) (mem : SenderMemory) (s : System) : Prop :=
  ∃ start, start.Initial chunk mem ∧ Relation.ReflTransGen (Step chunk mem) start s

end System

end Flowd.Privsep
