import NetworkMonitoring.Foundations.RedBlackBalance
import NetworkMonitoring.Foundations.SplayTree
import NetworkMonitoring.Softflowd.Emulator
import NetworkMonitoring.Softflowd.CheckExpired

/-!
# softflowd — the trees

The flow tracking structure with the trees the `Makefile` selects: a splay tree of the flows
(`FLOW_SPLAY`) and a red-black tree of the expiry events (`EXPIRY_RB`), both from `sys-tree.h`. The
functions of `softflowd.c` and `EmulatorInterface.c` are given once more, on the trees.

* `TreeTrack.table` is the structure with both trees seen as the lists of their nodes.
* A pointer to a node is its address; the nodes are those of the trees. A fault `pointer` also
  stands for following a link that is not there inside of a tree operation.
* A loop over a tree has its number of rounds as fuel; when it runs out, the loop does not end.
-/

namespace Softflowd

open Function CText InetText

/-- The result of `flow_compare` as the splay tree macros read it. -/
def flowOrder (f g : Flow) : ℤ :=
  match flowCompare f g with
  | .lt => -1
  | .eq => 0
  | .gt => 1

/-- `struct FLOWTRACK` with its trees. The lists of `rest` are not used. -/
structure TreeTrack where
  flows : BinaryTree Flow := .nil
  expiries : RedBlackTree.Tree Expiry := .nil
  rest : FlowTrack := {}

namespace TreeTrack

/-- The structure with the nodes of the trees in traversal order. -/
def table (tt : TreeTrack) : FlowTrack :=
  { tt.rest with
    flows := SplayTree.inorder tt.flows
    expiries := tt.expiries.inorder }

/-! ## The tree macros -/

/-- `FLOW_FIND`. The tree is splayed. -/
def flowFind (tt : TreeTrack) (tmp : Flow) : TreeTrack × Option Flow :=
  let (flows, found) := SplayTree.find (flowOrder tmp) tt.flows
  ({ tt with flows := flows }, found)

/-- `FLOW_INSERT`. -/
def flowInsert (tt : TreeTrack) (flow : Flow) : TreeTrack :=
  { tt with flows := SplayTree.insert (flowOrder flow) flow tt.flows }

/-- `FLOW_REMOVE`. -/
def flowRemove (tt : TreeTrack) (flow : Flow) : TreeTrack :=
  { tt with flows := SplayTree.remove (flowOrder flow) tt.flows }

/-- `FLOW_MIN`. The tree is splayed at its least flow. -/
def flowMin (tt : TreeTrack) : TreeTrack × Option Flow :=
  let flows := SplayTree.splay (fun _ => -1) tt.flows
  ({ tt with flows := flows },
    match flows with
    | .nil => none
    | .node flow _ _ => some flow)

/-- `FLOW_NEXT`. The tree is splayed at the flow. -/
def flowNext (tt : TreeTrack) (flow : Flow) : TreeTrack × Option Flow :=
  let flows := SplayTree.splay (flowOrder flow) tt.flows
  ({ tt with flows := flows },
    match flows with
    | .nil => none
    | .node _ _ r => (SplayTree.inorder r).head?)

/-- `EXPIRY_INSERT`. -/
def expiryInsert (tt : TreeTrack) (e : Expiry) : Except Fault TreeTrack :=
  match RedBlackTree.insert (expiryCompare tt.table.flows) e tt.expiries with
  | none => .error .pointer
  | some (expiries, _) => .ok { tt with expiries := expiries }

/-- `EXPIRY_REMOVE` of the event at address `p`. -/
def expiryRemove (tt : TreeTrack) (p : ℕ) : Except Fault TreeTrack :=
  match RedBlackTree.remove (fun e => e.ptr == p) tt.expiries with
  | none => .error .pointer
  | some expiries => .ok { tt with expiries := expiries }

/-- Write to the flow at address `p`. -/
def modifyFlow (tt : TreeTrack) (p : ℕ) (g : Flow → Flow) : TreeTrack :=
  { tt with flows := tt.flows.map fun f => if f.ptr = p then g f else f }

/-! ## Packets -/

/-- Remove an expiry event, change its key and insert it again. -/
def rekey (tt : TreeTrack) (e : Expiry) (expiresAt : UInt32) (reason : Reason) :
    Except Fault TreeTrack := do
  (← tt.expiryRemove e.ptr).expiryInsert { e with expiresAt := expiresAt, reason := reason }

/-- `flow_update_expiry`, called with the flow at address `p`. -/
def flowUpdateExpiry (tt : TreeTrack) (p : ℕ) : Except Fault TreeTrack :=
  match tt.table.flowAt p with
  | none => .error .pointer
  | some flow =>
    match tt.table.expiryOf flow with
    | none => .error .pointer
    | some e => tt.rekey e (tt.rest.newExpiry flow).1 (tt.rest.newExpiry flow).2

/-- Allocate a flow and its expiry event and insert both. -/
def createFlow (tt : TreeTrack) (tmp : Flow) (alloc : Alloc) :
    Except Fault (TreeTrack × Option ℕ) :=
  if !alloc.flow then .ok (tt, none)
  else
    let rest := { tt.rest with
      nextFlowSeq := tt.rest.nextFlowSeq + 1, nextPtr := tt.rest.nextPtr + 2 }
    let flow := { tmp with ptr := tt.rest.nextPtr, flowSeq := tt.rest.nextFlowSeq }
    -- the flow is in the tree already, without an event
    if !alloc.expiry then
      .ok ({ tt with rest := rest }.flowInsert { flow with expiry := none }, none)
    else do
      let flow := { flow with expiry := some (tt.rest.nextPtr + 1) }
      let e : Expiry :=
        { ptr := tt.rest.nextPtr + 1, flow := tt.rest.nextPtr, expiresAt := 1, reason := .general }
      let tt ← ({ tt with rest := rest }.flowInsert flow).expiryInsert e
      return ({ tt with rest := { tt.rest with numFlows := tt.rest.numFlows + 1 } }, some flow.ptr)

/-- The end of `process_packet`: the flow at `p` was seen at `received`. -/
def touchFlow (tt : TreeTrack) (p : ℕ) (received : Timeval) : Except Fault TreeTrack :=
  let tt := tt.modifyFlow p fun f => { f with flowLast := received }
  match (tt.table.flowAt p).bind tt.table.expiryOf with
  | none => .error .pointer
  | some e => if e.expiresAt ≠ 0 then tt.flowUpdateExpiry p else .ok tt

/-- The part of `process_packet` behind the tracking level. -/
def fileRecord (tt : TreeTrack) (tmp : Flow) (alloc : Alloc) (received : Timeval) :
    Except Fault (PpResult × TreeTrack) :=
  match tt.flowFind tmp with
  | (tt, none) => do
    match ← tt.createFlow { tmp with flowStart := received } alloc with
    | (tt, none) => return (.mallocFail, tt)
    | (tt, some p) => return (.ok, ← tt.touchFlow p received)
  | (tt, some flow) => do
    return (.ok, ← (tt.modifyFlow flow.ptr (FlowTrack.addRecord tmp)).touchFlow flow.ptr received)

/-- `process_packet`. -/
def processPacket (tt : TreeTrack) (alloc : Alloc) (m : Bytes.Mem) (af : ℤ) (caplen len : UInt32)
    (received : Timeval) : Except Fault (PpResult × TreeTrack) :=
  let rest := { tt.rest with totalPackets := tt.rest.totalPackets + 1 }
  match FlowTrack.packetRecord m af caplen len with
  | none => .ok (.badPacket, { tt with rest := { rest with badPackets := rest.badPackets + 1 } })
  | some (tmp, frag) =>
    { tt with rest := rest.countFragment frag }.fileRecord
      ((rest.countFragment frag).maskRecord tmp) alloc received

/-! ## Messages of the emulator -/

/-- The branch of `process_emulator_packet` that creates a flow. -/
def createEmulatorFlow (ms : Monitors) (tt : TreeTrack) (tmp : Flow) (ndx : Dir)
    (c : EmulatorCall) : Except Fault (PpResult × TreeTrack × Monitors) := do
  match ← tt.createFlow (tmp.stamp c.received) c.alloc with
  | (tt, none) => return (.mallocFail, tt, ms)
  | (tt, some p) =>
    match copyPart 16 c.pkt 0 with
    | .error (.fault f) => .error f
    | .error .fail => return (.badPacket, tt, ms)
    | .ok tmpEm =>
      match inetPton tmpEm with
      | none => return (.badPacket, tt, ms)
      | some a => return (.ok, tt.modifyFlow p (firstMonitor ndx a), ← addMonitor ms tmpEm)

/-- The branch of `process_emulator_packet` that updates the flow at address `p`. -/
def updateEmulatorFlow (ms : Monitors) (tt : TreeTrack) (flow tmp : Flow) (ndx : Dir)
    (c : EmulatorCall) : Except Fault (PpResult × TreeTrack × Monitors) :=
  match copyPart 16 c.pkt 0 with
  | .error (.fault f) => .error f
  | .error .fail => .ok (.badPacket, tt, ms)
  | .ok tmpEm => do
    let ms ← addMonitor ms tmpEm
    match inetPton tmpEm with
    | none => return (.badPacket, tt, ms)
    | some a =>
      let flow' ← countMonitor ndx a tmp flow
      let tt := tt.modifyFlow flow.ptr fun _ => flow'
      match getEmulatorPacketPart c.pkt maxEmulatorMessageParts with
      | .error (.fault f) => .error f
      | .error .fail => return (.badPacket, tt, ms)
      | .ok last =>
        -- `alreadyReceived` has one byte, so the copy has no terminator
        if 1 < last.length then .error .textBuffer
        else
          let tt :=
            if atoi (last ++ c.uninit.alreadyReceived.drop last.length) = 0 then
              tt.modifyFlow flow.ptr (addEmulatorRecord tmp ndx c.received)
            else tt
          return (.ok, ← tt.flowUpdateExpiry flow.ptr, ms)

/-- The part of `process_emulator_packet` behind the tracking level. -/
def fileEmulatorRecord (ms : Monitors) (tt : TreeTrack) (tmp : Flow) (ndx : Dir)
    (c : EmulatorCall) : Except Fault (PpResult × TreeTrack × Monitors) :=
  match tt.flowFind tmp with
  | (tt, none) => tt.createEmulatorFlow ms tmp ndx c
  | (tt, some flow) =>
    match tt.table.expiryOf flow with
    | none => .error .pointer
    | some e =>
      if e.expiresAt ≠ 0 then tt.updateEmulatorFlow ms flow tmp ndx c else .ok (.ok, tt, ms)

/-- `process_emulator_packet`. -/
def processEmulatorPacket (tt : TreeTrack) (ms : Monitors) (c : EmulatorCall) :
    Except Fault (PpResult × TreeTrack × Monitors) :=
  if 100 ≤ c.pkt.length then .error .textBuffer
  else
    match c.record with
    | .error (.fault f) => .error f
    | .error .fail =>
      .ok (.badPacket, { tt with rest := { tt.rest with
        totalPackets := tt.rest.totalPackets + 1, badPackets := tt.rest.badPackets + 1 } }, ms)
    | .ok (tmp, frag, ndx) =>
      { tt with rest := tt.rest.counted frag }.fileEmulatorRecord ms
        ((tt.rest.counted frag).maskRecord tmp) ndx c

/-! ## Expiring and deleting -/

/-- Take an expired flow out of the trees. -/
def expireFlow (tt : TreeTrack) (flow : Flow) (e : Expiry) (ex : ExpireMode) :
    Except Fault TreeTrack := do
  let reason := expiredReason tt.rest flow e ex
  let rest := { tt.rest with expired := update tt.rest.expired reason (tt.rest.expired reason + 1) }
  let tt ← ({ tt with rest := rest }.flowRemove flow).expiryRemove e.ptr
  return { tt with rest := { tt.rest with numFlows := tt.rest.numFlows - 1 } }

/-- The loop over the expiry events in `check_expired`, from the event at address `p` on. The
successor is taken before the event may be removed. -/
def scanLoop (now : Timeval) (ex : ExpireMode) (reallocOk : Expiry → Bool) :
    ℕ → TreeTrack → List Flow → Option ℕ → Except Fault (TreeTrack × List Flow)
  | _, tt, expired, none => .ok (tt, expired)
  | 0, _, _, some _ => .error .noReturn
  | k + 1, tt, expired, some p =>
    match RedBlackTree.locate (fun e => e.ptr == p) tt.expiries [] with
    | none => .error .pointer
    | some expiry =>
      let e := expiry.elm
      -- `nexpiry = EXPIRY_NEXT(expiry)` in the head of the loop
      let nexpiry := (expiry.next.map RedBlackTree.Cursor.elm).map Expiry.ptr
      if e.isDue now ex then
        match tt.table.flowAt e.flow with
        | none => .error .pointer
        | some flow => do
          let tt ← tt.expireFlow flow e ex
          scanLoop now ex reallocOk k tt
            (if reallocOk e then expired ++ [flow.retire] else expired) nexpiry
      else scanLoop now ex reallocOk k tt expired nexpiry

/-- The scan of `check_expired`, with `k` rounds at most. -/
def scanExpired (now : Timeval) (ex : ExpireMode) (reallocOk : Expiry → Bool) (k : ℕ)
    (tt : TreeTrack) : Except Fault (TreeTrack × List Flow) :=
  scanLoop now ex reallocOk k tt []
    (((RedBlackTree.min? tt.expiries).map RedBlackTree.Cursor.elm).map Expiry.ptr)

/-- `force_expire`; the loop `EXPIRY_FOREACH` of its first part visits `numToExpire` events. -/
def forceExpire (tt : TreeTrack) (callocOk : Bool) (numToExpire : UInt32) :
    Except Fault TreeTrack :=
  if !callocOk then
    let expiries := tt.expiries.map fun e => { e with expiresAt := 0, reason := .overflows }
    .ok { tt with
      expiries := expiries
      rest := { tt.rest with flowsForceExpired :=
        tt.rest.flowsForceExpired + UInt64.ofNat expiries.inorder.length } }
  else do
    let expiryv := RedBlackTree.visits numToExpire.toNat (RedBlackTree.min? tt.expiries)
    let tt ← expiryv.foldlM (fun tt e => tt.rekey e 0 .overflows) tt
    return { tt with rest := { tt.rest with flowsForceExpired :=
      tt.rest.flowsForceExpired + UInt64.ofNat expiryv.length } }

/-- The loop of `delete_all_flows`, from a flow on: the number of flows removed, and the state. -/
def deleteLoop : ℕ → TreeTrack → ℤ → Option Flow → Except Fault (ℤ × TreeTrack)
  | _, tt, i, none => .ok (i, tt)
  | 0, _, _, some _ => .error .noReturn
  | k + 1, tt, i, some flow =>
    match tt.flowNext flow with
    | (tt, nflow) =>
      match flow.expiry with
      | none => .error .pointer
      | some p => do
        let tt ← (tt.flowRemove flow).expiryRemove p
        deleteLoop k { tt with rest := { tt.rest with numFlows := tt.rest.numFlows - 1 } } (i + 1)
          nflow

/-- `delete_all_flows`, with `k` rounds at most. -/
def deleteAllFlows (k : ℕ) (tt : TreeTrack) : Except Fault (ℤ × TreeTrack) :=
  match tt.flowMin with
  | (tt, flow) => deleteLoop k tt 0 flow

end TreeTrack

end Softflowd
