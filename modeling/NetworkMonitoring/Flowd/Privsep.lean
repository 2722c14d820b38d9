import NetworkMonitoring.Flowd.Filter
import NetworkMonitoring.Flowd.Receive
import NetworkMonitoring.Flowd.StoreReaders
import NetworkMonitoring.Foundations.Receivers

/-!
# flowd — the configuration goes to the collector

`privsep.c`: the monitor sends the configuration it has read over a socket, and the collector
replaces its own by it. A string goes with its length, a list with the number of its elements, and
an element as the memory of its `struct` on a 64-bit host. That memory has bytes besides the
fields, padding and the links of the queue, which are an argument here. A queue is the list of its
elements. Calls that pass descriptors are arguments, and memory does not run out.
-/

namespace Flowd.Privsep

open Bytes Receivers

/-! ## Configurations -/

/-- A string in memory, up to its terminator. -/
structure CString where
  bytes : List UInt8
  nonzero : 0 ∉ bytes
  deriving DecidableEq

/-- `strdup` of a buffer. -/
def CString.strdup (buf : List UInt8) : CString where
  bytes := buf.takeWhile (· != 0)
  nonzero h := by simpa using List.all_eq_true.mp List.all_takeWhile 0 h

/-- `struct listen_addr`. -/
structure ListenAddr where
  addr : Xaddr
  port : UInt16
  fd : Int32
  bufsiz : UInt64
  deriving DecidableEq

/-- `struct join_group`. -/
structure JoinGroup where
  addr : Xaddr
  deriving DecidableEq

/-- `struct flowd_config` with the fields that are sent besides the allowed devices; a string that
is
NULL is `none`. -/
structure FlowdConfig extends toDevices : Flowd.FlowdConfig where
  logFile : Option CString := none
  logSocket : Option CString := none
  logSocketBufsiz : UInt64 := 0
  pidFile : Option CString := none
  storeMask : UInt32 := 0
  opts : UInt32 := 0
  listenAddrs : List ListenAddr := []
  filterList : List FilterRule := []
  joinGroups : List JoinGroup := []
  deriving DecidableEq

/-! ## The memory of an element -/

/-- The bytes of an element that are no field of it. -/
abbrev Slack := ℕ → UInt8

/-- The `n` bytes of it that stand behind the first `k`. -/
def Slack.gap (slack : Slack) (k n : ℕ) : List UInt8 := List.ofFn fun i : Fin n => slack (k + i)

/-- An `int` in memory. -/
def leInt (v : Int32) : List UInt8 := le32 v.toUInt32

/-- Read an `int`. -/
def readInt : StateM (List UInt8) Int32 := do return (← read32).toInt32

/-- Go on behind a gap of `n` bytes. -/
def skip (n : ℕ) : StateM (List UInt8) Unit := do
  let _ ← readOctets n
  return ()

/-- The memory of a `struct xaddr`, with two bytes of padding. -/
def xaddrMemory (gap : List UInt8) (a : Xaddr) : List UInt8 :=
  le16 a.af ++ (gap ++ (List.ofFn a.addr8 ++ le32 a.scopeId))

def readXaddr : StateM (List UInt8) Xaddr := do
  let af ← read16
  skip 2
  return { af := af, addr8 := ← readOctets 16, scopeId := ← read32 }

/-- The memory of a `struct listen_addr`: 2 bytes of padding before the descriptor, the links at
the end. -/
def ListenAddr.memory (slack : Slack) (la : ListenAddr) : List UInt8 :=
  xaddrMemory (slack.gap 0 2) la.addr ++ (le16 la.port ++ (slack.gap 2 2 ++ (leInt la.fd ++
    (le64 la.bufsiz ++ slack.gap 4 16))))

def ListenAddr.read : StateM (List UInt8) ListenAddr := do
  let addr ← readXaddr
  let port ← read16
  skip 2
  return { addr := addr, port := port, fd := ← readInt, bufsiz := ← read64 }

/-- The memory of a `struct join_group`: the links at the end. -/
def JoinGroup.memory (slack : Slack) (jg : JoinGroup) : List UInt8 :=
  xaddrMemory (slack.gap 0 2) jg.addr ++ slack.gap 2 16

def JoinGroup.read : StateM (List UInt8) JoinGroup := do
  return { addr := ← readXaddr }

end Flowd.Privsep

namespace Flowd

open Bytes Privsep

/-- The memory of a `struct allowed_device`: padding and the links at the end. -/
def AllowedDevice.memory (slack : Slack) (ad : AllowedDevice) : List UInt8 :=
  xaddrMemory (slack.gap 0 2) ad.addr ++ (le32 ad.masklen ++ slack.gap 2 20)

def AllowedDevice.read : StateM (List UInt8) AllowedDevice := do
  return { addr := ← readXaddr, masklen := ← read32 }

/-- The memory of a `struct filter_match`. -/
def FilterMatch.memory (slack : Slack) (m : FilterMatch) : List UInt8 :=
  le32 m.matchWhat ++ (le32 m.matchNegate ++ (leInt m.agentMasklen ++
    (xaddrMemory (slack.gap 16 2) m.agentAddr ++ (leInt m.af ++ (leInt m.srcMasklen ++
    (xaddrMemory (slack.gap 18 2) m.srcAddr ++ (leInt m.dstMasklen ++
    (xaddrMemory (slack.gap 20 2) m.dstAddr ++ (leInt m.ifndxIn ++ (leInt m.ifndxOut ++
    (leInt m.srcPort ++ (leInt m.dstPort ++ (leInt m.proto ++ (leInt m.tos ++
    (leInt m.tcpFlagsMask ++ (leInt m.tcpFlagsEquals ++ (leInt m.dayMask ++ (leInt m.dayafter ++
    (leInt m.daybefore ++ (leInt m.absafter ++ leInt m.absbefore))))))))))))))))))))

def FilterMatch.read : StateM (List UInt8) FilterMatch := do
  return {
    matchWhat := ← read32, matchNegate := ← read32
    agentMasklen := ← readInt, agentAddr := ← readXaddr, af := ← readInt
    srcMasklen := ← readInt, srcAddr := ← readXaddr
    dstMasklen := ← readInt, dstAddr := ← readXaddr
    ifndxIn := ← readInt, ifndxOut := ← readInt, srcPort := ← readInt, dstPort := ← readInt
    proto := ← readInt, tos := ← readInt, tcpFlagsMask := ← readInt, tcpFlagsEquals := ← readInt
    dayMask := ← readInt, dayafter := ← readInt, daybefore := ← readInt
    absafter := ← readInt, absbefore := ← readInt }

/-- The memory of a `struct filter_rule`: the links come first. -/
def FilterRule.memory (slack : Slack) (fr : FilterRule) : List UInt8 :=
  slack.gap 0 16 ++ (leInt fr.action.actionWhat ++ (le32 fr.action.tag ++ (leInt fr.quick ++
    (fr.match.memory slack ++ (le64 fr.evaluations ++ (le64 fr.«matches» ++ le64 fr.wins))))))

def FilterRule.read : StateM (List UInt8) FilterRule := do
  skip 16
  return {
    action := { actionWhat := ← readInt, tag := ← read32 }, quick := ← readInt
    «match» := ← FilterMatch.read
    evaluations := ← read64, «matches» := ← read64, wins := ← read64 }

end Flowd

namespace Flowd.Privsep

open Bytes Receivers

/-! ## The sender -/

/-- How a function that does not get to its end leaves. -/
inductive Stop where
  /-- `return (-1)`. -/
  | fails
  /-- `logerrx` ends the process. -/
  | exits
  deriving DecidableEq, Repr

/-- `privsep_write_string`: the bytes it writes. -/
def privsepWriteString (s : Option CString) (nullok : Bool) : Except Stop (List UInt8) :=
  match s with
  | none => if nullok = false then .error .exits else .ok (le64 0)
  | some s =>
    if s.bytes.length ≤ 0 then .error .fails
    else .ok (le64 (UInt64.ofNat s.bytes.length) ++ s.bytes)

/-- The bytes of the elements of the four lists that are no fields. -/
structure SenderMemory where
  listenAddrs : ℕ → Slack
  filterList : ℕ → Slack
  allowedDevices : ℕ → Slack
  joinGroups : ℕ → Slack

/-- Count the elements of a queue and write their number. -/
def writeCount {α : Type} (xs : List α) : List UInt8 := le32 (UInt32.ofNat xs.length)

/-- The loop that writes the elements of a queue. -/
def writeElements {α : Type} (memory : Slack → α → List UInt8) (slack : ℕ → Slack)
    (xs : List α) : List UInt8 :=
  xs.zipIdx.flatMap fun p => memory (slack p.2) p.1

/-- Pass a descriptor, if there is one. -/
def passFd (sendFd : Int32 → Except Stop (List UInt8)) (fd : Int32) : Except Stop (List UInt8) :=
  if fd ≠ -1 then sendFd fd else .ok []

/-- The loop that writes the listening addresses; `sendFd` is what `send_fd` writes. -/
def writeListenAddrs (sendFd : Int32 → Except Stop (List UInt8)) (slack : ℕ → Slack)
    (las : List ListenAddr) : Except Stop (List UInt8) := do
  let pieces ← las.zipIdx.mapM fun p => do
    let passed ← passFd sendFd p.1.fd
    return p.1.memory (slack p.2) ++ passed
  return pieces.flatten

/-- `send_config`: the bytes it writes when it returns 0. -/
def sendConfig (sendFd : Int32 → Except Stop (List UInt8)) (mem : SenderMemory)
    (conf : FlowdConfig) : Except Stop (List UInt8) := do
  let logFile ← privsepWriteString conf.logFile true
  let logSocket ← privsepWriteString conf.logSocket true
  let pidFile ← privsepWriteString conf.pidFile false
  -- Write Listen Addrs
  let listenAddrs ← writeListenAddrs sendFd mem.listenAddrs conf.listenAddrs
  return logFile ++ (logSocket ++ (le64 conf.logSocketBufsiz ++ (pidFile ++ (le32 conf.storeMask ++
    (le32 conf.opts ++ (writeCount conf.listenAddrs ++ (listenAddrs ++
    -- Write Filter Rules
    (writeCount conf.filterList ++
      (writeElements FilterRule.memory mem.filterList conf.filterList ++
    -- Write Allowed Devices
    (writeCount conf.allowedDevices ++
      (writeElements AllowedDevice.memory mem.allowedDevices conf.allowedDevices ++
    -- Write Multicast join groups
    (writeCount conf.joinGroups ++
      writeElements JoinGroup.memory mem.joinGroups conf.joinGroups))))))))))))

/-! ## The receiver -/

/-- What `recv_config` changes: the configuration of the collector and, as a list, the descriptors
that have been closed. -/
structure Collector where
  conf : FlowdConfig
  closed : List Int32 := []
  deriving DecidableEq

/-- A function that reads from the socket. -/
abbrev Recv (α : Type) := Receiver UInt8 Collector Stop α

section

variable (chunk : ℕ → ℕ)

/-- `atomicio` on the socket. -/
def recvBytes (n : ℕ) : Recv FileRead := do
  let (input, s) ← get
  let r := atomicioRead chunk n [] input
  set (r.rest, s)
  return r

/-- A read of `n` bytes that have to be there. -/
def recvAll (n : ℕ) (stop : Stop) : Recv (List UInt8) := do
  let r ← recvBytes chunk n
  if r.ret ≠ n then throw stop else return r.data

/-- A read into a variable of `n` bytes. -/
def recvVar {α : Type} (n : ℕ) (read : StateM (List UInt8) α) : Recv α := do
  let bs ← recvAll chunk n .fails
  return (read.run bs).1

/-- The bytes of a string of `len` bytes; NULL when they are not all there. -/
def recvStringBytes (len : ℕ) : Recv (Option CString) := do
  let r ← recvBytes chunk len
  -- buf[len] = '\0' ends what is copied
  if r.ret ≠ len then return none else return some (CString.strdup r.data)

/-- `privsep_read_string`. -/
def privsepReadString (nullok : Bool) : Recv (Option CString) := do
  let bs ← recvAll chunk 8 .exits
  let len := (read64.run bs).1.toNat
  if nullok = true ∧ len = 0 then return none
  else if len ≤ 0 ∨ 8192 ≤ len then throw .exits
  else recvStringBytes chunk len

/-- The call for `pid_file`, which must not be NULL. -/
def recvPidFile : Recv CString := do
  match ← privsepReadString chunk false with
  | none => throw .fails
  | some s => return s

/-- Read the number of elements of a queue. -/
def recvCount (silly : ℕ → Bool) : Recv ℕ := do
  let n ← recvVar chunk 4 read32
  if silly n.toNat = true then throw .fails else return n.toNat

/-- A silly number of elements. -/
def sillyList (n : ℕ) : Bool := n > 1024 * 1024

/-- Read a queue: the number of its elements, and then these. -/
def recvList {α : Type} (silly : ℕ → Bool) (element : Recv α) : Recv (List α) := do
  let n ← recvCount chunk silly
  element.collect n []

/-- Read a listening address, and its descriptor where it has one. -/
def recvListenAddr (receiveFd : Recv Int32) : Recv ListenAddr := do
  let la ← recvVar chunk 56 ListenAddr.read
  if la.fd ≠ -1 then do
    let fd ← receiveFd
    if fd = -1 then throw .fails else return { la with fd := fd }
  else return la

end

/-! ## Replacing the configuration -/

/-- The loop that frees the listening addresses from the front of their queue and closes open
descriptors. -/
def freeListenAddrs : List ListenAddr → List Int32 → List Int32
  | [], closed => closed
  | la :: las, closed => freeListenAddrs las (if la.fd ≠ -1 then closed ++ [la.fd] else closed)

/-- The loop that moves the last element of one queue to the front of another. -/
def moveQueue {α : Type} (src dst : List α) : List α × List α :=
  match _h : src.getLast? with
  | none => (src, dst)
  | some x => moveQueue src.dropLast (x :: dst)
termination_by src.length
decreasing_by
  have hne : src ≠ [] := by
    rintro rfl
    cases _h
  have hpos := List.length_pos_iff.mpr hne
  rw [List.length_dropLast]
  omega

/-- `replace_conf`; `newconf` is not used again. -/
def replaceConf (s : Collector) (newconf : FlowdConfig) : Collector :=
  let closed := freeListenAddrs s.conf.listenAddrs s.closed
  -- The old elements are free, and the queues of the copy are made empty
  let conf := { newconf with
    listenAddrs := [], filterList := [], allowedDevices := [], joinGroups := [] }
  let conf := { conf with
    listenAddrs := (moveQueue newconf.listenAddrs conf.listenAddrs).2
    filterList := (moveQueue newconf.filterList conf.filterList).2
    allowedDevices := (moveQueue newconf.allowedDevices conf.allowedDevices).2
    joinGroups := (moveQueue newconf.joinGroups conf.joinGroups).2 }
  { conf := conf, closed := closed }

/-- `recv_config` up to the call of `replace_conf`: it fills `newconf`. -/
def recvNewconf (chunk : ℕ → ℕ) (receiveFd : Recv Int32) : Recv FlowdConfig := do
  let logFile ← privsepReadString chunk true
  let logSocket ← privsepReadString chunk true
  let logSocketBufsiz ← recvVar chunk 8 read64
  let pidFile ← recvPidFile chunk
  let storeMask ← recvVar chunk 4 read32
  let opts ← recvVar chunk 4 read32
  -- Read Listen Addrs
  let listenAddrs ← recvList chunk (fun n => n == 0 || n > 8192) (recvListenAddr chunk receiveFd)
  -- Read Filter Rules
  let filterList ← recvList chunk sillyList (recvVar chunk 200 FilterRule.read)
  -- Read Allowed Devices
  let allowedDevices ← recvList chunk sillyList (recvVar chunk 48 AllowedDevice.read)
  -- Read multicast join groups
  let joinGroups ← recvList chunk sillyList (recvVar chunk 40 JoinGroup.read)
  return {
    logFile := logFile, logSocket := logSocket, logSocketBufsiz := logSocketBufsiz
    pidFile := some pidFile, storeMask := storeMask, opts := opts
    listenAddrs := listenAddrs, filterList := filterList
    allowedDevices := allowedDevices, joinGroups := joinGroups }

/-- `recv_config`. -/
def recvConfig (chunk : ℕ → ℕ) (receiveFd : Recv Int32) : Recv ℤ := do
  let newconf ← recvNewconf chunk receiveFd
  modify fun (input, s) => (input, replaceConf s newconf)
  return 0

end Flowd.Privsep
