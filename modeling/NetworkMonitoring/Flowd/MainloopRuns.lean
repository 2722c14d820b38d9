import NetworkMonitoring.Flowd.Mainloop
import NetworkMonitoring.Flowd.StoreReadBack

/-!
# flowd — what a run of the main loop does

A packet of the input queue comes from a datagram of version 1 or 5, the only ones `receive_packet`
lets pass, so its records have IPv4 addresses besides that of the agent. Those that the filter
accepts are the `Ledger` of the run, log by log.

## Main results

* `flowdMainloop_packets`: the packets are processed once each, in the order of reception;
* `flowdMainloop_logs`: the logs read back what the ledger says;
* `flowdMainloop_ends`: how a round can end.
-/

namespace Flowd

open Bytes CText ErrorLoops OptionalFields

/-! ## The records of a packet -/

/-- What `process_packet` may hand to `process_flow` for a packet of the queue. The peer of the
packet may be gone, and the packet may be rejected. -/
inductive DecodedFrom (fp : FlowPacket) : List StoreFlowComplete → Prop where
  | none : DecodedFrom fp []
  | v1 {flows : List StoreFlowComplete} (tvUsec : ℤ) : fp.version = 1 →
      decodeNetflowV1 tvUsec fp = some flows → DecodedFrom fp flows
  | v5 {flows : List StoreFlowComplete} : fp.version = 5 → decodeNetflowV5 fp = some flows →
      DecodedFrom fp flows

/-- A packet that `receive_packet` lets pass. -/
structure FlowPacket.Queueable (fp : FlowPacket) : Prop where
  version : fp.version = 1 ∨ fp.version = 5
  source : fp.flowSource.Valid

/-- A word of fields with IPv4 addresses, and the address of the agent in either family. -/
structure Ipv4Fields (fields : UInt32) : Prop where
  known : fields &&& ~~~storeFieldAll = 0
  agent4 : fields &&& (StoreField.addr4 .agent).mask = (StoreField.addr4 .agent).mask
  agent6 : fields &&& (StoreField.addr6 .agent).mask = (StoreField.addr6 .agent).mask
  src : fields &&& (StoreField.addr6 .src).mask = 0
  dst : fields &&& (StoreField.addr6 .dst).mask = 0
  gateway : fields &&& (StoreField.addr6 .gateway).mask = 0

instance (fields : UInt32) : Decidable (Ipv4Fields fields) :=
  decidable_of_iff (fields &&& ~~~storeFieldAll = 0 ∧
    fields &&& (StoreField.addr4 .agent).mask = (StoreField.addr4 .agent).mask ∧
    fields &&& (StoreField.addr6 .agent).mask = (StoreField.addr6 .agent).mask ∧
    fields &&& (StoreField.addr6 .src).mask = 0 ∧
    fields &&& (StoreField.addr6 .dst).mask = 0 ∧
    fields &&& (StoreField.addr6 .gateway).mask = 0)
    ⟨fun ⟨h₁, h₂, h₃, h₄, h₅, h₆⟩ => ⟨h₁, h₂, h₃, h₄, h₅, h₆⟩,
      fun ⟨h₁, h₂, h₃, h₄, h₅, h₆⟩ => ⟨h₁, h₂, h₃, h₄, h₅, h₆⟩⟩

/-- A record of one of these packets. -/
structure Ipv4Record (flow : StoreFlowComplete) : Prop where
  fields : Ipv4Fields flow.fields
  tagged : Ipv4Fields (flow.fields ||| storeFieldTag)
  agent : flow.agentAddr.Valid
  src : flow.srcAddr.af = afInet
  dst : flow.dstAddr.af = afInet
  gateway : flow.gatewayAddr.af = afInet

/-- Records of version 1 have addresses of IPv4. -/
theorem Nf1Flow.ipv4Record (tvUsec : ℤ) {fp : FlowPacket} (hdr : Nf1Header) (flow : Nf1Flow)
    (hsource : fp.flowSource.Valid) : Ipv4Record (flow.toStore tvUsec fp hdr) where
  fields := by
    dsimp only [toStore]
    decide
  tagged := by
    dsimp only [toStore]
    decide
  agent := hsource
  src := rfl
  dst := rfl
  gateway := rfl

/-- Records of version 5 have addresses of IPv4. -/
theorem Nf5Flow.ipv4Record {fp : FlowPacket} (hdr : Nf5Header) (flow : Nf5Flow)
    (hsource : fp.flowSource.Valid) : Ipv4Record (flow.toStore fp hdr) where
  fields := by
    dsimp only [toStore]
    decide
  tagged := by
    dsimp only [toStore]
    decide
  agent := hsource
  src := rfl
  dst := rfl
  gateway := rfl

/-- All flows of a datagram have addresses of IPv4. -/
theorem DecodedFrom.ipv4Record {fp : FlowPacket} {flows : List StoreFlowComplete}
    (h : DecodedFrom fp flows) (hsource : fp.flowSource.Valid) {flow : StoreFlowComplete}
    (hflow : flow ∈ flows) : Ipv4Record flow := by
  cases h with
  | none => exact absurd hflow List.not_mem_nil
  | v1 tvUsec _ hdecode =>
    unfold decodeNetflowV1 at hdecode
    dsimp only at hdecode
    split_ifs at hdecode
    obtain rfl := Option.some.inj hdecode
    obtain ⟨i, -, rfl⟩ := List.mem_map.mp hflow
    exact Nf1Flow.ipv4Record tvUsec _ _ hsource
  | v5 _ hdecode =>
    unfold decodeNetflowV5 at hdecode
    dsimp only at hdecode
    split_ifs at hdecode
    obtain rfl := Option.some.inj hdecode
    obtain ⟨i, -, rfl⟩ := List.mem_map.mp hflow
    exact Nf5Flow.ipv4Record _ _ hsource

/-- The configuration stores the addresses of agents of both families, or of neither. -/
def StoresAgent (mask : UInt32) : Prop :=
  shasfield mask (.addr4 .agent) = shasfield mask (.addr6 .agent)

instance (mask : UInt32) : Decidable (StoresAgent mask) := instDecidableEqBool _ _

/-- A field that is set in `fields` is selected by the mask alone. -/
theorem shasfield_and_of_set {fields mask : UInt32} {flag : StoreField}
    (h : fields &&& flag.mask = flag.mask) :
    shasfield (fields &&& mask) flag = shasfield mask flag := by
  rw [UInt32.and_comm]
  exact has_and h mask

/-- A field that is not set in `fields` is not selected. -/
theorem shasfield_and_of_clear {fields mask : UInt32} {flag : StoreField}
    (h : fields &&& flag.mask = 0) : shasfield (fields &&& mask) flag = false := by
  have hand : fields &&& mask &&& flag.mask = 0 := by
    rw [UInt32.and_assoc, UInt32.and_comm mask, ← UInt32.and_assoc, h, UInt32.zero_and]
  rw [shasfield, has, hand]
  rfl

/-- Such a record can be stored. -/
theorem Ipv4Fields.storable {fields mask : UInt32} {flow : StoreFlowComplete}
    (h : Ipv4Fields fields) (hmask : StoresAgent mask) (hagent : flow.agentAddr.Valid)
    (hsrc : flow.srcAddr.af = afInet) (hdst : flow.dstAddr.af = afInet)
    (hgateway : flow.gatewayAddr.af = afInet) : flow.Storable (fields &&& mask) where
  known := by
    rw [hasUnknown, not_not, UInt32.and_assoc, UInt32.and_comm mask, ← UInt32.and_assoc, h.known,
      UInt32.zero_and]
  own_family := by
    -- without the other family of an address, its own one is what is selected
    have hown (g : AddrGroup) (haf : (flow.addr g).af = afInet)
        (hclear : fields &&& (StoreField.addr6 g).mask = 0) :
        flow.OwnFamily (fields &&& mask) g := by
      intro hsel
      rw [shasfield_and_of_clear hclear] at hsel
      exact .inl ⟨haf, hsel.resolve_right Bool.false_ne_true⟩
    intro g
    cases g with
    | src => exact hown .src hsrc h.src
    | dst => exact hown .dst hdst h.dst
    | gateway => exact hown .gateway hgateway h.gateway
    | agent =>
      intro hsel
      rw [shasfield_and_of_set h.agent4, shasfield_and_of_set h.agent6] at hsel ⊢
      rw [hmask] at hsel ⊢
      have hset := hsel.elim id id
      rcases hagent with haf | haf
      · exact .inl ⟨haf, hset⟩
      · exact .inr ⟨haf, hset⟩

/-- What the filter hands on of it can be stored. -/
theorem Ipv4Record.storable {flow : StoreFlowComplete} (h : Ipv4Record flow)
    (localtime : ℕ → Tm) (rules : List FilterRule) {mask : UInt32} (hmask : StoresAgent mask) :
    (filterFlow localtime (prepareFlow flow) rules).flow.Storable
      (htonl (filterFlow localtime (prepareFlow flow) rules).flow.fields &&& mask) := by
  have hfields : htonl (prepareFlow flow).fields = flow.fields := htonl_htonl _
  rcases filterFlow_flow localtime (prepareFlow flow) rules with heq | ⟨tag, htag⟩
  · rw [heq, hfields]
    exact h.fields.storable hmask h.agent h.src h.dst h.gateway
  · rw [htag.fields, hfields]
    rw [htag.rest]
    exact h.tagged.storable hmask h.agent h.src h.dst h.gateway

/-! ## The collector -/

/-- Only datagrams of these versions are attributed to an agent. -/
theorem Datagram.version_of_agent {d : Datagram} {heap : Mem} {addr : Xaddr}
    (h : d.attribution heap = .agent addr) : d.version heap = 1 ∨ d.version heap = 5 := by
  unfold attribution at h
  split_ifs at h with h1 h5
  · exact .inl h1
  · exact .inr h5

namespace Collector

variable {c : Collector} {limits : PeerLimits}

/-- `new_peer` fails only where memory runs out. -/
theorem Inv.findOrNewPeer_exit (h : c.Inv) (hmax : 1 ≤ limits.maxPeers) (allocs : Allocs)
    (addr : Xaddr) :
    Ends (fun e => e = .exit) (fun _ => True) (c.findOrNewPeer limits allocs addr) := by
  unfold findOrNewPeer
  split
  · trivial
  · split_ifs
    · trivial
    · rfl
    · refine ((newPeer_ends h.counted addr).imp (fun e hzero => ?_) fun _ => id).map
        fun _ _ => trivial
      omega

/-- `receive_packet` puts at most one packet into the queue, of a version that it lets pass. -/
theorem Inv.receivePacket_queue (h : c.Inv) (hmax : 1 ≤ limits.maxPeers) (allocs : Allocs)
    (heap : Mem) (recv : Option Datagram) :
    Ends (fun e => e = .exit)
      (fun r => r.1.conf = c.conf ∧ ∃ queued, r.1.inputQueue = c.inputQueue ++ queued ∧
        ∀ fp ∈ queued, fp.Queueable)
      (c.receivePacket limits allocs heap recv) := by
  -- most branches leave the queue as it is
  have hsame {c' : Collector} {ret : Option ℤ} (hconf : c'.conf = c.conf)
      (hqueue : c'.inputQueue = c.inputQueue) :
      (c', ret).1.conf = c.conf ∧ ∃ queued, (c', ret).1.inputQueue = c.inputQueue ++ queued ∧
        ∀ fp ∈ queued, fp.Queueable :=
    ⟨hconf, [], by rw [List.append_nil, hqueue], fun fp hfp => absurd hfp List.not_mem_nil⟩
  cases recv with
  | none => exact hsame rfl rfl
  | some d =>
    rw [receivePacket]
    split_ifs
    · exact hsame rfl rfl
    cases hattr : d.attribution heap with
    | unsupported => exact hsame rfl rfl
    | invalid => exact hsame rfl rfl
    | agent addr =>
      refine (h.findOrNewPeer_exit hmax allocs addr).bind fun r _ => ?_
      cases r with
      | none => exact hsame rfl rfl
      | some peers =>
        dsimp only
        rw [queuePacket]
        split_ifs with hshort
        · exact hsame rfl rfl
        · exact hsame rfl rfl
        · -- only a version that has an agent address comes as far as this
          refine ⟨rfl, [packetOf d addr], rfl, fun fp hfp => ?_⟩
          obtain rfl := List.mem_singleton.mp hfp
          refine ⟨?_, attribution_valid hattr⟩
          rw [Datagram.version_packetOf heap (Nat.le_of_not_lt hshort)]
          exact Datagram.version_of_agent hattr

/-- `process_packet` takes the packet from the queue, and cannot go wrong. -/
theorem processPacket_queueable (limits : PeerLimits) {fp : FlowPacket} {rest : List FlowPacket}
    (hqueue : c.inputQueue = fp :: rest) (hfp : fp.Queueable) (mem : Unwritten) :
    ∃ c' flows, c.processPacket limits mem = .ok (c', flows) ∧ c'.inputQueue = rest ∧
      c'.conf = c.conf ∧ DecodedFrom fp flows := by
  unfold processPacket
  rw [hqueue]
  dsimp only
  cases hfind : c.peers.findPeer fp.flowSource with
  | none => exact ⟨_, _, rfl, rfl, rfl, .none⟩
  | some peer =>
    dsimp only
    rcases hfp.version with hversion | hversion
    · rw [processVersion, if_pos hversion, ok_bind]
      refine ⟨_, _, rfl, rfl, rfl, ?_⟩
      unfold processNetflowV1
      split
      · exact .none
      · rename_i flows hdecode
        exact .v1 mem.tvUsec hversion hdecode
    · have hne : ¬ fp.version = 1 := by
        rw [hversion]
        decide
      rw [processVersion, if_neg hne, if_pos hversion, ok_bind]
      refine ⟨_, _, rfl, rfl, rfl, ?_⟩
      unfold processNetflowV5
      split
      · exact .none
      · rename_i flows hdecode
        exact .v5 hversion hdecode

end Collector

/-! ## What process_flow does -/

/-- The record that `process_flow` stores, with the fields selected, if it does. -/
def recordsOf (localtime : ℕ → Tm) (conf : MainConfig) (flow : StoreFlowComplete) :
    List (StoreFlowComplete × UInt32) :=
  if flow.srcAddr.af ≠ flow.dstAddr.af then []
  else
    let filtered := filterFlow localtime (prepareFlow flow) conf.filterList
    if filtered.action = ffActionDiscard then [] else [(filtered.flow, conf.storeMask)]

/-- The bytes that a record is stored as. -/
def Serialised (p : StoreFlowComplete × UInt32) (bs : List UInt8) : Prop :=
  ∃ locals, (storeFlowSerialiseMasked locals p.1 p.2 1024).1.ret = storeErrOk ∧
    bs = (storeFlowSerialiseMasked locals p.1 p.2 1024).2

/-- The bytes of one record after the other. -/
def WrittenAs (bs : List UInt8) (ps : List (StoreFlowComplete × UInt32)) : Prop :=
  ∃ chunks, List.Forall₂ Serialised ps chunks ∧ bs = chunks.flatten

/-- What is written one after the other. -/
theorem WrittenAs.append {bs bs' : List UInt8} {ps ps' : List (StoreFlowComplete × UInt32)}
    (h : WrittenAs bs ps) (h' : WrittenAs bs' ps') : WrittenAs (bs ++ bs') (ps ++ ps') := by
  obtain ⟨chunks, hchunks, rfl⟩ := h
  obtain ⟨chunks', hchunks', rfl⟩ := h'
  exact ⟨chunks ++ chunks', List.rel_append hchunks hchunks', List.flatten_append.symm⟩

/-- Nothing is written for no flows. -/
theorem writtenAs_nil : WrittenAs [] [] := ⟨[], .nil, rfl⟩

/-- Only no bytes are written for no flows. -/
theorem writtenAs_nil_iff {bs : List UInt8} : WrittenAs bs [] ↔ bs = [] := by
  constructor
  · rintro ⟨chunks, hchunks, rfl⟩
    cases hchunks
    rfl
  · rintro rfl
    exact writtenAs_nil

/-- The output of a record. -/
theorem processFlow_output {st : OutputState} (h : st.Inv) (logFd : ℤ) (locals : FieldVars)
    (mask : UInt32) (allocs allocs' : OutputAllocs) (flow : StoreFlowComplete) :
    Ends (fun stop => stop = OutputStop.exit)
      (fun st' => st'.Inv ∧
        (storeFlowSerialiseMasked locals flow mask 1024).1.ret = storeErrOk ∧
        (logFd = -1 → st' = st) ∧
        (logFd ≠ -1 →
          st'.output = st.output ++ (storeFlowSerialiseMasked locals flow mask 1024).2))
      (Flowd.processFlow logFd locals mask allocs allocs' st flow) := by
  by_cases hok : (storeFlowSerialiseMasked locals flow mask 1024).1.ret = storeErrOk
  · by_cases hopen : logFd = -1
    · have hsame : Flowd.processFlow logFd locals mask allocs allocs' st flow = .ok st := by
        unfold Flowd.processFlow processFlowOutput
        simp only [hok, hopen, ne_eq, not_true_eq_false, if_false, if_true]
        rfl
      rw [hsame]
      exact ⟨h, hok, fun _ => rfl, fun hne => absurd hopen hne⟩
    · refine (processFlow_ends h hopen locals mask allocs' flow).imp (fun _ => id)
        fun st' hst' => ⟨hst'.1, hok, fun heq => absurd heq hopen, fun _ => hst'.2⟩
  · unfold Flowd.processFlow
    simp only [if_pos hok]
    rfl

/-- Whether `process_flow` reports a record. -/
def isReported (conf : MainConfig) (flow : StoreFlowComplete) : Bool :=
  flow.srcAddr.af = flow.dstAddr.af ∧ conf.opts &&& flowdOptVerbose ≠ 0

/-- What `process_flow` changes. -/
structure FlowDone (localtime : ℕ → Tm) (flow : StoreFlowComplete) (s s' : Mainloop) : Prop where
  collector_eq : s'.collector = s.collector
  logFd_eq : s'.logFd = s.logFd
  closedLogs_eq : s'.closedLogs = s.closedLogs
  devices_eq : s'.conf.devices = s.conf.devices
  trace_eq : s'.trace = s.trace ++ [.flow s.conf flow]
  output_inv : s'.output.Inv
  unopened : s.logFd = -1 → s'.output = s.output
  written : s.logFd ≠ -1 → ∃ bs, s'.output.output = s.output.output ++ bs ∧
    WrittenAs bs (recordsOf localtime s.conf flow)
  reports : s'.reports.length = s.reports.length + if isReported s.conf flow = true then 1 else 0

namespace Mainloop

/-- The log socket is all that is written to. -/
theorem sendRecord_eq (c : FlowCall) (s : Mainloop) (fbuf : List UInt8) :
    ∃ sent first num, s.sendRecord c fbuf =
      { s with sent := sent, logsockFirstError := first, logsockNumErrors := num } := by
  unfold sendRecord
  split_ifs <;> exact ⟨_, _, _, rfl⟩

/-- How many reports there are on a record. -/
theorem length_reportFlow {localtime : ℕ → Tm} {inet6Text : Xaddr → Text} {usable : ℕ}
    {conf : MainConfig} {fl : Estimation.Report} {flow : StoreFlowComplete}
    {reports : List Estimation.Report}
    (h : reportFlow localtime inet6Text usable conf.toProcessConfig fl flow = some reports) :
    reports.length = if isReported conf flow = true then 1 else 0 := by
  unfold reportFlow at h
  by_cases haf : flow.srcAddr.af = flow.dstAddr.af
  · by_cases hverbose : conf.opts &&& flowdOptVerbose = 0
    · simp only [haf, hverbose, ne_eq, not_true_eq_false, if_false, Option.some.injEq] at h
      simp [← h, isReported, hverbose]
    · simp only [haf, hverbose, ne_eq, not_true_eq_false, not_false_eq_true, if_false, if_true,
        Option.map_eq_some_iff] at h
      obtain ⟨report, -, rfl⟩ := h
      simp [isReported, haf, hverbose]
  · simp only [ne_eq, haf, not_false_eq_true, if_true, Option.some.injEq] at h
    simp [← h, isReported, haf]

variable (localtime : ℕ → Tm) (inet6Text : Xaddr → Text) (usable : ℕ)

/-- What `process_flow` does with a record. -/
theorem processFlow_done {s : Mainloop} (h : s.output.Inv) (c : FlowCall)
    (flow : StoreFlowComplete) :
    Ends (fun stop => stop = .format ∨ stop = .output .exit) (FlowDone localtime flow s)
      (s.processFlow localtime inet6Text usable c flow) := by
  unfold processFlow
  dsimp only
  -- a record of two address families is dropped before it is reported
  by_cases haf : flow.srcAddr.af = flow.dstAddr.af
  · rw [if_neg (not_not.mpr haf)]
    cases hreport : reportFlow localtime inet6Text usable s.conf.toProcessConfig c.fl flow with
    | none => exact .inl rfl
    | some reports =>
      have hlen := length_reportFlow hreport
      dsimp only
      -- what the filter discards is reported, but not stored
      by_cases hdiscard :
          (filterFlow localtime (prepareFlow flow) s.conf.filterList).action = ffActionDiscard
      · rw [if_pos hdiscard]
        refine ⟨rfl, rfl, rfl, rfl, rfl, h, fun _ => rfl, fun _ => ⟨[], ?_, ?_⟩, ?_⟩
        · exact (List.append_nil _).symm
        · unfold recordsOf
          rw [if_neg (not_not.mpr haf), if_pos hdiscard]
          exact writtenAs_nil
        · simp [hlen]
      · rw [if_neg hdiscard]
        refine ((processFlow_output h s.logFd c.locals s.conf.storeMask c.allocs c.allocs' _).imp
          (fun stop hstop => .inr (congrArg MainStop.output hstop)) fun _ => id).mapError.bind
          fun output ⟨hinv, hret, hunopened, hwritten⟩ => ?_
        obtain ⟨sent, first, num, hsend⟩ := sendRecord_eq c _ _
        rw [hsend]
        refine ⟨rfl, rfl, rfl, rfl, rfl, hinv, hunopened, fun hopen => ⟨_, hwritten hopen, ?_⟩, ?_⟩
        · unfold recordsOf
          rw [if_neg (not_not.mpr haf), if_neg hdiscard]
          exact ⟨[_], .cons ⟨c.locals, hret, rfl⟩ .nil, by simp⟩
        · simp [hlen]
  · rw [if_pos haf]
    refine ⟨rfl, rfl, rfl, rfl, rfl, h, fun _ => rfl, fun _ => ⟨[], ?_, ?_⟩, ?_⟩
    · exact (List.append_nil _).symm
    · unfold recordsOf
      rw [if_pos haf]
      exact writtenAs_nil
    · simp [isReported, haf]

end Mainloop

/-! ## The trace -/

/-- The packets that have been queued. -/
def queuedPackets (trace : List LoopEvent) : List FlowPacket :=
  trace.filterMap fun
    | .queued fp => some fp
    | _ => none

/-- The packets that have been processed, with their records. -/
def processedPackets (trace : List LoopEvent) : List (FlowPacket × List StoreFlowComplete) :=
  trace.filterMap fun
    | .processed fp flows => some (fp, flows)
    | _ => none

/-- The records that have been handed to `process_flow`, with the configuration. -/
def handedFlows (trace : List LoopEvent) : List (MainConfig × StoreFlowComplete) :=
  trace.filterMap fun
    | .flow conf flow => some (conf, flow)
    | _ => none

/-- The records that belong into the logs: those that have been closed, and the one that is open. -/
structure Ledger where
  closed : List (List (StoreFlowComplete × UInt32)) := []
  current : Option (List (StoreFlowComplete × UInt32)) := none

/-- What an event adds. -/
def Ledger.add (localtime : ℕ → Tm) (l : Ledger) : LoopEvent → Ledger
  | .flow conf flow => { l with current := l.current.map (· ++ recordsOf localtime conf flow) }
  | .opened => { l with current := some [] }
  | .closed => { closed := l.closed ++ [l.current.getD []], current := none }
  | .queued _ | .processed _ _ => l

/-- The ledger of a trace. -/
def ledger (localtime : ℕ → Tm) (trace : List LoopEvent) : Ledger :=
  trace.foldl (Ledger.add localtime) {}

section Trace

variable {localtime : ℕ → Tm} {trace : List LoopEvent}

/-- The account after one more event. -/
theorem ledger_append_singleton (e : LoopEvent) :
    ledger localtime (trace ++ [e]) = (ledger localtime trace).add localtime e := by
  simp [ledger]

/-- Packets that are queued do not change the account. -/
@[simp]
theorem ledger_append_queued (fps : List FlowPacket) :
    ledger localtime (trace ++ fps.map .queued) = ledger localtime trace := by
  induction fps generalizing trace with
  | nil => simp
  | cons fp fps ih =>
    rw [List.map_cons, List.append_cons, ih, ledger_append_singleton]
    rfl

/-- The packets that two traces have queued. -/
theorem queuedPackets_append (es : List LoopEvent) :
    queuedPackets (trace ++ es) = queuedPackets trace ++ queuedPackets es :=
  List.filterMap_append

/-- The packets that two traces have processed. -/
theorem processedPackets_append (es : List LoopEvent) :
    processedPackets (trace ++ es) = processedPackets trace ++ processedPackets es :=
  List.filterMap_append

/-- The flows that two traces have handed on. -/
theorem handedFlows_append (es : List LoopEvent) :
    handedFlows (trace ++ es) = handedFlows trace ++ handedFlows es :=
  List.filterMap_append

/-- Queueing packets queues these packets. -/
@[simp]
theorem queuedPackets_queued (fps : List FlowPacket) : queuedPackets (fps.map .queued) = fps := by
  induction fps with
  | nil => rfl
  | cons fp fps ih => exact congrArg (fp :: ·) ih

/-- Queueing packets processes none. -/
@[simp]
theorem processedPackets_queued (fps : List FlowPacket) :
    processedPackets (fps.map .queued) = [] := by
  induction fps with
  | nil => rfl
  | cons fp fps ih => exact ih

/-- Queueing packets hands on no flow. -/
@[simp]
theorem handedFlows_queued (fps : List FlowPacket) : handedFlows (fps.map .queued) = [] := by
  induction fps with
  | nil => rfl
  | cons fp fps ih => exact ih

end Trace

/-! ## Invariants -/

/-- What holds of the packets: they are taken from the queue in their order. `pending` are the
records of the packet being processed that have not been handed to `process_flow` yet. -/
structure Packets (pending : List StoreFlowComplete) (collector : Collector)
    (trace : List LoopEvent) : Prop where
  inv : collector.Inv
  queueable : ∀ fp ∈ queuedPackets trace, fp.Queueable
  fifo : queuedPackets trace = (processedPackets trace).map Prod.fst ++ collector.inputQueue
  decoded : ∀ p ∈ processedPackets trace, DecodedFrom p.1 p.2
  handed : (processedPackets trace).flatMap Prod.snd =
    (handedFlows trace).map Prod.snd ++ pending

/-- Events that are not about packets. -/
theorem Packets.quiet {pending : List StoreFlowComplete} {collector : Collector}
    {trace es : List LoopEvent} (h : Packets pending collector trace)
    (hqueued : queuedPackets es = []) (hprocessed : processedPackets es = [])
    (hflows : handedFlows es = []) : Packets pending collector (trace ++ es) := by
  obtain ⟨hinv, hqueueable, hfifo, hdecoded, hhanded⟩ := h
  have hq : queuedPackets (trace ++ es) = queuedPackets trace := by
    rw [queuedPackets_append, hqueued, List.append_nil]
  have hp : processedPackets (trace ++ es) = processedPackets trace := by
    rw [processedPackets_append, hprocessed, List.append_nil]
  have hf : handedFlows (trace ++ es) = handedFlows trace := by
    rw [handedFlows_append, hflows, List.append_nil]
  exact ⟨hinv, by rwa [hq], by rwa [hq, hp], by rwa [hp], by rwa [hp, hf]⟩

/-- What holds of the logs. -/
structure Logged (localtime : ℕ → Tm) (output : OutputState) (logFd : ℤ)
    (closedLogs : List (List UInt8)) (trace : List LoopEvent) : Prop where
  inv : output.Inv
  isOpen : logFd ≠ -1 ↔ (ledger localtime trace).current.isSome = true
  closed : List.Forall₂ WrittenAs closedLogs (ledger localtime trace).closed
  current : WrittenAs output.output ((ledger localtime trace).current.getD [])

/-- The number of records that are reported. -/
def reportedCount (trace : List LoopEvent) : ℕ :=
  (handedFlows trace).countP fun p => isReported p.1 p.2

namespace Mainloop

variable (localtime : ℕ → Tm)

/-- What holds wherever the main loop is. -/
structure Inv (pending : List StoreFlowComplete) (s : Mainloop) : Prop where
  packets : Packets pending s.collector s.trace
  logged : Logged localtime s.output s.logFd s.closedLogs s.trace
  reported : s.reports.length = reportedCount s.trace

/-- What holds where a round begins. -/
structure AtTop (s : Mainloop) : Prop where
  inv : s.Inv localtime []
  inputQueue_eq : s.collector.inputQueue = []
  offset_eq : s.output.offset = 0

/-- The ways in which a round may stop the process. -/
def MayStop (stop : MainStop) : Prop :=
  stop = .exit ∨ stop = .format ∨ stop = .output .exit ∨ stop = .fault .exit

variable {localtime}

/-- A record has been handed to `process_flow`. -/
theorem Inv.flowDone {flow : StoreFlowComplete} {pending : List StoreFlowComplete}
    {s s' : Mainloop} (h : s.Inv localtime (flow :: pending))
    (hdone : FlowDone localtime flow s s') : s'.Inv localtime pending := by
  obtain ⟨hcollector, hlogFd, hclosed, -, htrace, hinv, hunopened, hwritten, hreports⟩ := hdone
  refine ⟨?_, ?_, ?_⟩
  · rw [hcollector, htrace]
    refine ⟨h.packets.inv, ?_, ?_, ?_, ?_⟩
    · rw [queuedPackets_append]
      simpa [queuedPackets] using h.packets.queueable
    · rw [queuedPackets_append, processedPackets_append]
      simpa [queuedPackets, processedPackets] using h.packets.fifo
    · rw [processedPackets_append]
      simpa [processedPackets] using h.packets.decoded
    · have hhanded := h.packets.handed
      rw [processedPackets_append, handedFlows_append]
      simpa [processedPackets, handedFlows] using hhanded
  · rw [hlogFd, hclosed, htrace]
    have hledger : ledger localtime (s.trace ++ [.flow s.conf flow]) =
        (ledger localtime s.trace).add localtime (.flow s.conf flow) := ledger_append_singleton _
    refine ⟨hinv, ?_, ?_, ?_⟩
    · rw [hledger, h.logged.isOpen]
      simp [Ledger.add]
    · rw [hledger]
      exact h.logged.closed
    · rw [hledger]
      have hcurrent := h.logged.current
      have hopen := h.logged.isOpen
      -- the record is added to the log that is open, if there is one
      cases hled : (ledger localtime s.trace).current with
      | none =>
        rw [hled] at hopen hcurrent
        have hclosed : s.logFd = -1 := not_not.mp fun hne => nomatch hopen.mp hne
        rw [hunopened hclosed]
        simpa [Ledger.add, hled] using hcurrent
      | some ps =>
        rw [hled] at hopen hcurrent
        obtain ⟨bs, houtput, hbs⟩ := hwritten (hopen.mpr rfl)
        rw [houtput]
        simpa [Ledger.add, hled] using hcurrent.append hbs
  · have hone : handedFlows [.flow s.conf flow] = [(s.conf, flow)] := rfl
    rw [hreports, htrace, h.reported, reportedCount, reportedCount, handedFlows_append,
      List.countP_append, hone, List.countP_singleton]

/-- A packet has been taken from the queue and decoded. -/
theorem Inv.taken {s : Mainloop} (h : s.Inv localtime []) {collector : Collector}
    {fp : FlowPacket} {flows : List StoreFlowComplete} (hinv : collector.Inv)
    (hqueue : s.collector.inputQueue = fp :: collector.inputQueue)
    (hdecoded : DecodedFrom fp flows) :
    Inv localtime flows
      { s with collector := collector, trace := s.trace ++ [.processed fp flows] } where
  packets := by
    have hfifo := h.packets.fifo
    have hhanded := h.packets.handed
    rw [hqueue] at hfifo
    rw [List.append_nil] at hhanded
    refine ⟨hinv, ?_, ?_, ?_, ?_⟩
    · rw [queuedPackets_append]
      simpa [queuedPackets] using h.packets.queueable
    · rw [queuedPackets_append, processedPackets_append]
      simpa [queuedPackets, processedPackets] using hfifo
    · rw [processedPackets_append]
      intro p hp
      rcases List.mem_append.mp hp with hp | hp
      · exact h.packets.decoded p hp
      · obtain rfl : p = (fp, flows) := List.mem_singleton.mp hp
        exact hdecoded
    · rw [processedPackets_append, handedFlows_append, List.flatMap_append, hhanded]
      simp [processedPackets, handedFlows]
  logged := by
    have hledger : ledger localtime (s.trace ++ [.processed fp flows]) =
        ledger localtime s.trace := ledger_append_singleton _
    exact ⟨h.logged.inv, hledger ▸ h.logged.isOpen, hledger ▸ h.logged.closed,
      hledger ▸ h.logged.current⟩
  reported := by
    rw [h.reported, reportedCount, reportedCount, handedFlows_append]
    simp [handedFlows]

section Round

variable {inet6Text : Xaddr → Text} {usable : ℕ} {limits : PeerLimits} {s : Mainloop}

/-- `process_packet` hands over the records of the first packet. -/
theorem Inv.processPacket_ends (h : s.Inv localtime []) {fp : FlowPacket} {rest : List FlowPacket}
    (hqueue : s.collector.inputQueue = fp :: rest) (c : PacketCall) :
    Ends MayStop (fun s' => s'.Inv localtime [] ∧ s'.collector.inputQueue = rest)
      (s.processPacket localtime inet6Text usable limits c) := by
  have hfp : fp.Queueable := by
    refine h.packets.queueable fp ?_
    rw [h.packets.fifo, hqueue]
    exact List.mem_append_right _ List.mem_cons_self
  obtain ⟨collector, flows, hcall, hrest, -, hdecoded⟩ :=
    Collector.processPacket_queueable limits hqueue hfp c.mem
  have hinv : collector.Inv := Collector.Step.inv h.packets.inv (.process c.mem hcall)
  have htaken := h.taken hinv (hrest ▸ hqueue) hdecoded
  unfold processPacket
  rw [hcall, hqueue]
  -- the records that are left are handed over one by one
  refine (Ends.foldlM (I := fun pre s' => ∃ left, flows = pre.map Prod.fst ++ left ∧
    s'.Inv localtime left ∧ s'.collector.inputQueue = rest) ?_ ⟨flows, rfl, htaken, hrest⟩).imp
    (fun _ => id) ?_
  · rintro pre ⟨flow, i⟩ post s' heq ⟨left, hleft, hs', hqueue'⟩
    have hflows : flows = pre.map Prod.fst ++ flow :: post.map Prod.fst := by
      rw [← List.zipIdx_map_fst 0 flows, heq, List.map_append]
      rfl
    obtain rfl := List.append_cancel_left (hleft.symm.trans hflows)
    refine (processFlow_done localtime inet6Text usable hs'.logged.inv (c.flows i) flow).imp
      (fun stop hstop => ?_) fun t hdone => ?_
    · exact hstop.elim (fun h => .inr (.inl h)) fun h => .inr (.inr (.inl h))
    · refine ⟨post.map Prod.fst, ?_, hs'.flowDone hdone, hdone.collector_eq ▸ hqueue'⟩
      rw [hflows, List.map_append]
      simp
  · rintro t ⟨left, hleft, ht, hqueue'⟩
    rw [List.zipIdx_map_fst] at hleft
    obtain rfl : left = [] := by simpa using hleft.symm
    exact ⟨ht, hqueue'⟩

/-- `process_input_queue` empties the queue. -/
theorem Inv.processInputQueue_ends (h : s.Inv localtime []) (packets : ℕ → PacketCall)
    {fuel : ℕ} (hfuel : s.collector.inputQueue.length ≤ fuel) (i : ℕ) :
    Ends MayStop (fun s' => s'.Inv localtime [] ∧ s'.collector.inputQueue = [])
      (s.processInputQueue localtime inet6Text usable limits packets fuel i) := by
  induction fuel generalizing s i with
  | zero =>
    have hempty := List.length_eq_zero_iff.mp (Nat.le_zero.mp hfuel)
    rw [processInputQueue, if_pos hempty]
    exact ⟨h, hempty⟩
  | succ fuel ih =>
    rw [processInputQueue]
    split_ifs with hempty
    · exact ⟨h, hempty⟩
    · obtain ⟨fp, rest, hqueue⟩ := List.exists_cons_of_ne_nil hempty
      refine (h.processPacket_ends hqueue (packets i)).bind fun s' ⟨hs', hrest⟩ => ?_
      refine ih hs' ?_ (i + 1)
      rw [hqueue, List.length_cons] at hfuel
      rw [hrest]
      omega

/-- `receive_packet` puts what comes behind the packets that are there. -/
theorem Inv.receivePacket_ends (h : s.Inv localtime []) (hmax : 1 ≤ limits.maxPeers)
    (c : RecvCall) :
    Ends MayStop (fun r => r.2.Inv localtime [])
      (s.receivePacket limits c) := by
  unfold receivePacket
  have hends := h.packets.inv.receivePacket_queue hmax c.allocs c.heap c.recv
  cases hcall : s.collector.receivePacket limits c.allocs c.heap c.recv with
  | error e =>
    rw [hcall] at hends
    exact .inr (.inr (.inr (congrArg MainStop.fault hends)))
  | ok r =>
    obtain ⟨collector, ret⟩ := r
    rw [hcall] at hends
    obtain ⟨-, queued, hqueue, hqueued⟩ := hends
    dsimp only at hqueue
    have hinv : collector.Inv :=
      Collector.Step.inv h.packets.inv (.receive c.allocs c.heap c.recv hcall)
    -- what is new in the queue is what has been put there
    have hdrop : collector.inputQueue.drop s.collector.inputQueue.length = queued := by
      rw [hqueue, List.drop_left]
    change Inv localtime [] { s with
      collector := collector
      trace := s.trace ++
        (collector.inputQueue.drop s.collector.inputQueue.length).map .queued }
    rw [hdrop]
    refine ⟨⟨hinv, ?_, ?_, ?_, ?_⟩, ?_, ?_⟩
    · rw [queuedPackets_append, queuedPackets_queued]
      intro fp hfp
      exact (List.mem_append.mp hfp).elim (h.packets.queueable fp) (hqueued fp)
    · rw [queuedPackets_append, processedPackets_append, queuedPackets_queued,
        processedPackets_queued, List.append_nil, hqueue, h.packets.fifo, List.append_assoc]
    · rw [processedPackets_append, processedPackets_queued, List.append_nil]
      exact h.packets.decoded
    · rw [processedPackets_append, handedFlows_append, processedPackets_queued,
        handedFlows_queued, List.append_nil, List.append_nil, List.append_nil, h.packets.handed,
        List.append_nil]
    · have hledger : ledger localtime (s.trace ++ queued.map .queued) = ledger localtime s.trace :=
        ledger_append_queued queued
      exact ⟨h.logged.inv, hledger ▸ h.logged.isOpen, hledger ▸ h.logged.closed,
        hledger ▸ h.logged.current⟩
    · rw [h.reported, reportedCount, reportedCount, handedFlows_append, handedFlows_queued,
        List.append_nil]

/-- `receive_many` ends after as many packets as it may take. -/
theorem Inv.receiveMany_ends (h : s.Inv localtime []) (hmax : 1 ≤ limits.maxPeers)
    (calls : ℕ → RecvCall) (left i : ℕ) :
    Ends MayStop (fun s' => s'.Inv localtime []) (s.receiveMany limits calls left i) := by
  induction left generalizing s i with
  | zero => exact h
  | succ left ih =>
    rw [receiveMany]
    refine (h.receivePacket_ends hmax (calls i)).bind fun ⟨ret, s'⟩ hs' => ?_
    dsimp only
    split_ifs
    · exact hs'
    · exact ih hs' (i + 1)

/-! ### Between the rounds -/

/-- The check of the log socket keeps the account. -/
theorem AtTop.checkLogSocket (h : s.AtTop localtime) (now : ℤ) :
    (s.checkLogSocket now).AtTop localtime := by
  unfold Mainloop.checkLogSocket
  split_ifs
  · exact ⟨⟨h.inv.packets, h.inv.logged, h.inv.reported⟩, h.inputQueue_eq, h.offset_eq⟩
  · exact h

/-- At the end of a round, the output queue is empty. -/
theorem AtTop.queued_eq_nil (h : s.AtTop localtime) : s.output.queued = [] := by
  rw [OutputState.queued, h.offset_eq, List.take_zero]

/-- So the log that is closed has everything that belongs into it. -/
theorem AtTop.closeLog (h : s.AtTop localtime) : s.closeLog.AtTop localtime := by
  unfold Mainloop.closeLog
  split_ifs with hopen
  · have hledger : ledger localtime (s.trace ++ [.closed]) =
        (ledger localtime s.trace).add localtime .closed := ledger_append_singleton _
    obtain ⟨hinv, -, hclosed, hcurrent⟩ := h.inv.logged
    have hqueued : s.output.queued = [] := h.queued_eq_nil
    refine ⟨⟨?_, ⟨?_, ?_, ?_, ?_⟩, ?_⟩, h.inputQueue_eq, h.offset_eq⟩
    · exact h.inv.packets.quiet rfl rfl rfl
    · exact hinv.imp id fun ⟨buf, hbuf⟩ => ⟨buf, hbuf.1, hbuf.2, hbuf.3, hbuf.4⟩
    · rw [hledger]
      simp [Ledger.add]
    · rw [hledger]
      refine List.rel_append hclosed (.cons ?_ .nil)
      rwa [OutputState.output, hqueued, List.append_nil] at hcurrent
    · rw [hledger]
      exact writtenAs_nil_iff.mpr hqueued
    · rw [h.inv.reported, reportedCount, reportedCount, handedFlows_append]
      simp [handedFlows]
  · exact h

/-- Reopened logs keep the account. -/
theorem AtTop.reopenLogs (h : s.AtTop localtime) (reopen : Bool) :
    (s.reopenLogs reopen).AtTop localtime := by
  have hflag : AtTop localtime { s with reopenFlag := s.reopenFlag || reopen } :=
    ⟨⟨h.inv.packets, h.inv.logged, h.inv.reported⟩, h.inputQueue_eq, h.offset_eq⟩
  unfold Mainloop.reopenLogs
  dsimp only
  split_ifs
  · obtain ⟨⟨hpackets, hlogged, hreported⟩, hqueue, hoffset⟩ := hflag.closeLog
    exact ⟨⟨hpackets, hlogged, hreported⟩, hqueue, hoffset⟩
  · exact hflag

/-- The configuration changes while the queue is empty. -/
theorem AtTop.reconfigure_ends (h : s.AtTop localtime) (answer : Option (Option MainConfig)) :
    Ends MayStop (AtTop localtime) (s.reconfigure answer) := by
  match answer with
  | none => exact h
  | some none => exact .inl rfl
  | some (some conf) =>
    obtain ⟨hinv, hqueueable, hfifo, hdecoded, hhanded⟩ := h.inv.packets
    have hstep : Collector.Step {} s.collector [] { s.collector with
        conf := conf.devices
        peers := s.collector.peers.scrub conf.devices } := .reconfigure conf.devices h.inputQueue_eq
    have hinv' := hstep.inv hinv
    exact ⟨⟨⟨hinv', hqueueable, hfifo, hdecoded, hhanded⟩, h.inv.logged, h.inv.reported⟩,
      h.inputQueue_eq, h.offset_eq⟩

/-- A log that is opened is empty. -/
theorem AtTop.startLog_ends (h : s.AtTop localtime) (fd : Option ℕ) :
    Ends MayStop (AtTop localtime) (s.startLog fd) := by
  unfold startLog
  split_ifs with hclosed
  · cases fd with
    | none => exact .inl rfl
    | some fd =>
      have hledger : ledger localtime (s.trace ++ [.opened]) =
          (ledger localtime s.trace).add localtime .opened := ledger_append_singleton _
      have hcurrent := h.inv.logged.current
      have hnone : (ledger localtime s.trace).current = none := by
        rw [← Option.not_isSome_iff_eq_none, ← h.inv.logged.isOpen]
        exact not_not.mpr hclosed.1
      rw [hnone] at hcurrent
      refine ⟨⟨h.inv.packets.quiet rfl rfl rfl, ⟨h.inv.logged.inv, ?_, ?_, ?_⟩, ?_⟩,
        h.inputQueue_eq, h.offset_eq⟩
      · rw [hledger]
        simp only [Ledger.add, Option.isSome_some, iff_true]
        omega
      · rw [hledger]
        exact h.inv.logged.closed
      · rw [hledger]
        exact hcurrent
      · rw [h.inv.reported, reportedCount, reportedCount, handedFlows_append]
        simp [handedFlows]
  · exact h

/-- Starting the log socket keeps the account, or stops the program. -/
theorem AtTop.startSocket_ends (h : s.AtTop localtime) (fd : Option ℕ) :
    Ends MayStop (AtTop localtime) (s.startSocket fd) := by
  unfold startSocket
  split_ifs
  · cases fd with
    | none => exact .inl rfl
    | some fd =>
      exact ⟨⟨h.inv.packets, h.inv.logged, h.inv.reported⟩, h.inputQueue_eq, h.offset_eq⟩
  · exact h

/-- Without a log nothing is queued, and otherwise `output_flow_flush` writes what is queued. -/
theorem Inv.flush (h : s.Inv localtime []) (hqueue : s.collector.inputQueue = []) :
    s.flush.AtTop localtime := by
  obtain ⟨hinv, hopen, hclosed, hcurrent⟩ := h.logged
  by_cases hfd : s.logFd = -1
  · have hsame : s.flush = s := by
      unfold Mainloop.flush outputFlowFlush
      rw [if_pos hfd]
    have hnone : (ledger localtime s.trace).current = none := by
      rw [← Option.not_isSome_iff_eq_none, ← hopen]
      exact not_not.mpr hfd
    rw [hnone] at hcurrent
    have hempty : s.output.output = [] := writtenAs_nil_iff.mp hcurrent
    have hqueued : s.output.queued = [] := (List.append_eq_nil_iff.mp hempty).2
    rw [hsame]
    refine ⟨h, hqueue, ?_⟩
    rw [← hinv.length_queued, hqueued]
    rfl
  · obtain ⟨hinv', houtput, hoffset⟩ := outputFlowFlush_spec hinv hfd
    exact ⟨⟨h.packets, ⟨hinv', hopen, hclosed, houtput ▸ hcurrent⟩, h.reported⟩, hqueue, hoffset⟩

/-- What a round does. -/
theorem AtTop.round_ends (h : s.AtTop localtime) (hmax : 1 ≤ limits.maxPeers) (r : Round) :
    Ends MayStop (AtTop localtime) (s.round localtime inet6Text usable limits r) := by
  unfold Mainloop.round
  have hreopened := (h.checkLogSocket r.now).reopenLogs r.reopen
  refine (hreopened.reconfigure_ends r.reconf).bind fun s₁ h₁ => ?_
  refine (h₁.startLog_ends r.logFd).bind fun s₂ h₂ => ?_
  refine (h₂.startSocket_ends r.logSocket).bind fun s₃ h₃ => ?_
  cases r.poll with
  | interrupted => exact h₃
  | failed => exact .inl rfl
  | monitorClosed => exact h₃
  | ready socks =>
    refine (Ends.foldlM (I := fun _ s => s.Inv localtime []) ?_ h₃.inv).bind fun s₄ h₄ => ?_
    · intro pre calls post s' _ hs'
      exact hs'.receiveMany_ends hmax calls inputMaxPacketPerFd 0
    · refine (h₄.processInputQueue_ends r.packets (Nat.le_refl _) 0).bind fun s₅ h₅ => ?_
      exact h₅.1.flush h₅.2

/-- The account is right at the start. -/
theorem atTop_start (conf : MainConfig) :
    AtTop localtime { conf := conf, collector := { conf := conf.devices } } where
  inv := by
    have hreach : Collector.Reachable {} { conf := conf.devices } := .start conf.devices
    refine ⟨⟨hreach.inv, ?_, rfl, ?_, rfl⟩, ⟨OutputState.inv_start, ?_, .nil, writtenAs_nil⟩, rfl⟩
    · exact fun fp hfp => absurd hfp List.not_mem_nil
    · exact fun p hp => absurd hp List.not_mem_nil
    · exact ⟨fun h => absurd rfl h, fun h => nomatch h⟩
  inputQueue_eq := rfl
  offset_eq := rfl

/-- The account is right behind every round. -/
theorem Run.atTop (h : s.Run localtime inet6Text usable limits) (hmax : 1 ≤ limits.maxPeers) :
    s.AtTop localtime := by
  induction h with
  | start conf => exact atTop_start conf
  | @round s s' r _ hround ih =>
    have hends : Ends MayStop (AtTop localtime) (s.round localtime inet6Text usable limits r) :=
      ih.round_ends hmax r
    rw [hround] at hends
    exact hends

end Round

end Mainloop

/-! ## Results -/

/-- The log reads back as the records, and then it ends. -/
def ReadsBack (bs : List UInt8) (ps : List (StoreFlowComplete × UInt32)) : Prop :=
  ∀ (chunk : ℕ → ℕ → ℕ) (stack : ℕ → List UInt8) (f : StoreFlowComplete), ∃ last,
    repeatCalls (fun n => storeGetFlow (chunk n) (stack n)) (ps.length + 1) f bs =
      .ok (ps.map (fun p => (storeErrOk, (p.1.stored p.2).readBack)) ++ [(storeErrEof, last)])

/-- Records that can be stored read back. -/
theorem WrittenAs.readsBack {bs : List UInt8} {ps : List (StoreFlowComplete × UInt32)}
    (h : WrittenAs bs ps) (hps : ∀ p ∈ ps, p.1.Storable (htonl p.1.fields &&& p.2)) :
    ReadsBack bs ps := by
  intro chunk stack f
  obtain ⟨chunks, hchunks, rfl⟩ := h
  have hrecords : chunks = ps.map fun p => (p.1.stored p.2).record := by
    induction hchunks with
    | nil => rfl
    | @cons p bs ps chunks hp _ ih =>
      obtain ⟨locals, -, rfl⟩ := hp
      rw [List.map_cons, ← ih fun q hq => hps q (List.mem_cons_of_mem p hq),
        StoreFlowComplete.storeFlowSerialiseMasked_storable locals (hps p List.mem_cons_self)
          (by decide)]
  have hwell : ∀ g ∈ ps.map (fun p => p.1.stored p.2), g.WellFormed := by
    intro g hg
    obtain ⟨p, hp, rfl⟩ := List.mem_map.mp hg
    exact StoreFlowComplete.stored_wellFormed (hps p hp)
  obtain ⟨last, hread⟩ := StoreFlowComplete.repeatCalls_records chunk stack hwell f
  refine ⟨last, ?_⟩
  have hbytes : chunks.flatten =
      (ps.map fun p => p.1.stored p.2).flatMap StoreFlowComplete.record := by
    rw [hrecords, List.flatMap_map]
    rfl
  rw [List.length_map, List.map_map] at hread
  rw [hbytes, hread]
  rfl

/-- All records of a ledger. -/
def Ledger.logs (l : Ledger) : List (List (StoreFlowComplete × UInt32)) :=
  l.closed ++ [l.current.getD []]

/-- What is in the ledger has been handed to `process_flow`. -/
theorem mem_ledger {localtime : ℕ → Tm} {trace : List LoopEvent}
    {ps : List (StoreFlowComplete × UInt32)} (hps : ps ∈ (ledger localtime trace).logs)
    {p : StoreFlowComplete × UInt32} (hp : p ∈ ps) :
    ∃ q ∈ handedFlows trace, p ∈ recordsOf localtime q.1 q.2 := by
  induction trace using List.reverseRecOn generalizing ps with
  | nil =>
    obtain rfl : ps = [] := by simpa [ledger, Ledger.logs] using hps
    cases hp
  | append_singleton trace e ih =>
    rw [ledger_append_singleton] at hps
    rw [handedFlows_append]
    -- what was in the ledger before is known by induction
    have hold {ps : List (StoreFlowComplete × UInt32)}
        (hps : ps ∈ (ledger localtime trace).logs) (hp : p ∈ ps) :
        ∃ q ∈ handedFlows trace ++ handedFlows [e], p ∈ recordsOf localtime q.1 q.2 := by
      obtain ⟨q, hq, hpq⟩ := ih hps hp
      exact ⟨q, List.mem_append_left _ hq, hpq⟩
    cases e with
    | queued fp => exact hold hps hp
    | processed fp flows => exact hold hps hp
    | opened =>
      rcases List.mem_append.mp hps with hps | hps
      · exact hold (List.mem_append_left _ hps) hp
      · obtain rfl : ps = [] := by simpa [Ledger.add] using hps
        cases hp
    | closed =>
      rcases List.mem_append.mp hps with hps | hps
      · exact hold hps hp
      · obtain rfl : ps = [] := by simpa [Ledger.add] using hps
        cases hp
    | flow conf flow =>
      rcases List.mem_append.mp hps with hps | hps
      · exact hold (List.mem_append_left _ hps) hp
      · cases hcurrent : (ledger localtime trace).current with
        | none =>
          obtain rfl : ps = [] := by simpa [Ledger.add, hcurrent] using hps
          cases hp
        | some qs =>
          obtain rfl : ps = qs ++ recordsOf localtime conf flow := by
            simpa [Ledger.add, hcurrent] using hps
          rcases List.mem_append.mp hp with hp | hp
          · refine hold (List.mem_append_right _ ?_) hp
            rw [hcurrent]
            exact List.mem_singleton_self _
          · -- the record of the last event
            refine ⟨(conf, flow), List.mem_append_right _ ?_, hp⟩
            exact List.mem_singleton_self _

/-! ### Two rounds with two packets each -/

/-- A packet of version 5 with one record, which is all zero. -/
def zeroRecordDatagram : Datagram where
  sender := .inet Collector.device
  fromlen := 16
  packet := [0, 5, 0, 1] ++ List.replicate 80 0
  length_le := by decide

/-- A packet with a record from 10.0.0.1 to 10.0.0.2. -/
def addressedDatagram : Datagram where
  sender := .inet Collector.device
  fromlen := 16
  packet := [0, 5, 0, 1] ++ List.replicate 20 0 ++ [10, 0, 0, 1, 10, 0, 0, 2] ++
    List.replicate 52 0
  length_le := by decide

/-- What is received in a round. -/
def twoDatagrams : ℕ → Option Datagram
  | 0 => some zeroRecordDatagram
  | 1 => some addressedDatagram
  | _ => none

/-- A round in which both are received, and before that, maybe, a signal to reopen the log. -/
def twoPacketRound (reopen : Bool) : Round where
  reopen := reopen
  poll := .ready [fun i => { recv := twoDatagrams i }]
  packets := fun _ =>
    { mem := ⟨0, fun _ => 0⟩
      flows := fun _ =>
        { fl := ⟨[], [], [], [], 0, 0, 0, 0, 0, 0, 0⟩
          locals := ⟨{}, fun _ _ => 0, fun _ _ => 0⟩ } }

/-- Everything is accepted, reported and stored. -/
def storeAllConf : MainConfig where
  opts := flowdOptVerbose
  filterList := []
  storeMask := storeFieldAll

/-- The main loop with this configuration. -/
def storeAllLoop : Mainloop :=
  { conf := storeAllConf, collector := { conf := storeAllConf.devices } }

/-- The epoch. -/
def epoch : ℕ → Tm := fun _ => ⟨0, 0, 0, 0⟩

/-- The runs in which no address is one of IPv6. -/
abbrev SampleRun : Mainloop → Prop := Mainloop.Run epoch (fun _ => []) 24 {}

/-- A round, and another one for which the log is reopened. -/
def twoRounds : Except MainStop Mainloop := do
  let s ← storeAllLoop.round epoch (fun _ => []) 24 {} (twoPacketRound false)
  s.round epoch (fun _ => []) 24 {} (twoPacketRound true)

/-- After the rounds there are two logs with two records each. -/
theorem exists_twoRounds : ∃ s, SampleRun s ∧
    (ledger epoch s.trace).logs.map List.length = [2, 2] ∧ (queuedPackets s.trace).length = 4 ∧
    reportedCount s.trace = 4 ∧ ∀ q ∈ handedFlows s.trace, StoresAgent q.1.storeMask := by
  have hcheck : (match twoRounds with
      | .ok s => decide ((ledger epoch s.trace).logs.map List.length = [2, 2] ∧
          (queuedPackets s.trace).length = 4 ∧ reportedCount s.trace = 4 ∧
          ∀ q ∈ handedFlows s.trace, StoresAgent q.1.storeMask)
      | .error _ => false) = true := by
    decide +kernel
  cases hrounds : twoRounds with
  | error stop =>
    rw [hrounds] at hcheck
    cases hcheck
  | ok s =>
    rw [hrounds] at hcheck
    obtain ⟨s₁, hfirst, hsecond⟩ := bind_eq_ok.mp hrounds
    have hstart : SampleRun storeAllLoop := .start storeAllConf
    exact ⟨s, .round _ (.round _ hstart hfirst) hsecond, of_decide_eq_true hcheck⟩

section

variable {localtime : ℕ → Tm} {inet6Text : Xaddr → Text} {usable : ℕ} {limits : PeerLimits}
  {s : Mainloop}

/-- The records in the ledger can be stored. -/
theorem Mainloop.AtTop.storable (h : s.AtTop localtime)
    (hmask : ∀ q ∈ handedFlows s.trace, StoresAgent q.1.storeMask)
    {ps : List (StoreFlowComplete × UInt32)} (hps : ps ∈ (ledger localtime s.trace).logs)
    {p : StoreFlowComplete × UInt32} (hp : p ∈ ps) : p.1.Storable (htonl p.1.fields &&& p.2) := by
  obtain ⟨q, hq, hpq⟩ := mem_ledger hps hp
  -- the record has been decoded from a packet of the queue
  have hflow : q.2 ∈ (processedPackets s.trace).flatMap Prod.snd := by
    rw [h.inv.packets.handed, List.append_nil]
    exact List.mem_map_of_mem hq
  obtain ⟨⟨fp, flows⟩, hmem, hflow⟩ := List.mem_flatMap.mp hflow
  have hfp : fp.Queueable := by
    refine h.inv.packets.queueable fp ?_
    rw [h.inv.packets.fifo]
    exact List.mem_append_left _ (List.mem_map_of_mem hmem)
  have hrecord := (h.inv.packets.decoded _ hmem).ipv4Record hfp.source hflow
  unfold recordsOf at hpq
  split_ifs at hpq
  · cases hpq
  · dsimp only at hpq
    split_ifs at hpq
    · cases hpq
    · obtain rfl := List.mem_singleton.mp hpq
      exact hrecord.storable localtime q.1.filterList (hmask q hq)

/-- **The logs.** When a round begins, nothing is left in the output queue. Each log reads back,
record by record and in order, what the filter has accepted while it was open, when the
configurations store the addresses of agents of both families or of neither. -/
theorem flowdMainloop_logs (h : s.Run localtime inet6Text usable limits)
    (hmax : 1 ≤ limits.maxPeers)
    (hmask : ∀ q ∈ handedFlows s.trace, StoresAgent q.1.storeMask) :
    s.output.queued = [] ∧
      List.Forall₂ ReadsBack (s.closedLogs ++ [s.output.log]) (ledger localtime s.trace).logs := by
  have htop := h.atTop hmax
  have hqueued := htop.queued_eq_nil
  obtain ⟨-, -, hclosed, hcurrent⟩ := htop.inv.logged
  rw [OutputState.output, hqueued, List.append_nil] at hcurrent
  have hwritten : List.Forall₂ WrittenAs (s.closedLogs ++ [s.output.log])
      (ledger localtime s.trace).logs := List.rel_append hclosed (.cons hcurrent .nil)
  refine ⟨hqueued, ?_⟩
  refine (List.forall₂_iff_get.mpr ?_)
  obtain ⟨hlen, hget⟩ := List.forall₂_iff_get.mp hwritten
  refine ⟨hlen, fun i hi hi' => (hget i hi hi').readsBack fun p hp => ?_⟩
  exact htop.storable hmask (List.get_mem _ _) hp

/-- The closed log and the new one read back. -/
theorem flowdMainloop_logs_two : ∃ s log ps qs, SampleRun s ∧ s.closedLogs = [log] ∧
    ps.length = 2 ∧ qs.length = 2 ∧ ReadsBack log ps ∧ ReadsBack s.output.log qs := by
  obtain ⟨s, h, hlens, -, -, hmask⟩ := exists_twoRounds
  obtain ⟨-, hreads⟩ := flowdMainloop_logs h (by decide) hmask
  obtain ⟨ps, qs, hlogs⟩ : ∃ ps qs, (ledger epoch s.trace).logs = [ps, qs] :=
    List.length_eq_two.mp (by simpa using congrArg List.length hlens)
  rw [hlogs] at hreads hlens
  obtain ⟨log, hclosed⟩ : ∃ log, s.closedLogs = [log] :=
    List.length_eq_one_iff.mp (by simpa using hreads.length_eq)
  obtain ⟨hps, hqs⟩ : ps.length = 2 ∧ qs.length = 2 := by simpa using hlens
  rw [hclosed, List.singleton_append, List.forall₂_cons, List.forall₂_cons] at hreads
  exact ⟨s, log, ps, qs, h, hclosed, hps, hqs, hreads.1, hreads.2.1⟩

/-- **The rounds end.** A round comes to the beginning of the next one, or the process ends with a
message, or `store_format_flow` goes wrong. -/
theorem flowdMainloop_ends (h : s.Run localtime inet6Text usable limits)
    (hmax : 1 ≤ limits.maxPeers) (r : Round) :
    Ends Mainloop.MayStop (Mainloop.Run localtime inet6Text usable limits)
      (s.round localtime inet6Text usable limits r) := by
  have hends : Ends Mainloop.MayStop (Mainloop.AtTop localtime)
      (s.round localtime inet6Text usable limits r) := (h.atTop hmax).round_ends hmax r
  cases hround : s.round localtime inet6Text usable limits r with
  | error stop =>
    rw [hround] at hends
    exact hends
  | ok s' => exact .round r h hround

/-- So does a third round behind the two. -/
theorem flowdMainloop_ends_two : ∃ s, SampleRun s ∧ (queuedPackets s.trace).length = 4 ∧
    Ends Mainloop.MayStop SampleRun
      (s.round epoch (fun _ => []) 24 {} (twoPacketRound true)) := by
  obtain ⟨s, h, -, hlen, -⟩ := exists_twoRounds
  exact ⟨s, h, hlen, flowdMainloop_ends h (by decide) (twoPacketRound true)⟩

end

end Flowd
