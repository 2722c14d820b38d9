import NetworkMonitoring.Flowd.Receive

/-!
# flowd — only authorised agents

Every record handed to `process_flow` has the address of the peer its packet belongs to
(`processVersion_from`), every peer has an address that an allowed device matches
(`Collector.Inv`), and a packet only gets into the input queue with such an address.

## Main results

* `Collector.Reachable.queues_iff`: which datagrams of an allowed sender get into the input queue;
* `Collector.Reachable.rejects`: a datagram that is attributed to an address no allowed device
  matches leaves the collector as it is.
-/

namespace Flowd

open Bytes ErrorLoops

/-! ## The agent of a record -/

/-- Copying a field of a data record leaves the agent address alone. -/
theorem nf9RecToFlow_agentAddr (type : ℕ) (flow : StoreFlowComplete) (data : List UInt8) :
    Ends (fun _ => True) (·.agentAddr = flow.agentAddr) (nf9RecToFlow type flow data) := by
  have hfield : ∀ {α : Type} {x : Except Fault α} (f : α → StoreFlowComplete),
      (∀ a, (f a).agentAddr = flow.agentAddr) →
      Ends (fun _ => True) (·.agentAddr = flow.agentAddr) (x >>= fun a => pure (f a)) := by
    intro α x f hf
    cases x with
    | error e => trivial
    | ok a => exact hf a
  rw [nf9RecToFlow.eq_def]
  split
  case h_26 => rfl
  all_goals exact hfield _ fun _ => rfl

/-- The fields of a record do not set the agent. -/
theorem recordLoop_agentAddr (pkt : List UInt8) (records : List PeerNf9Record) (offset : ℕ)
    (flow : StoreFlowComplete) :
    Ends (fun _ => True) (·.agentAddr = flow.agentAddr) (recordLoop pkt records offset flow) := by
  induction records generalizing offset flow with
  | nil => rfl
  | cons r rs ih =>
    rw [recordLoop]
    refine Ends.bind (P := fun _ => True) (by cases fetch pkt offset r.len <;> trivial)
      fun data _ => ?_
    refine (nf9RecToFlow_agentAddr r.type flow data).bind fun flow' hflow' => ?_
    exact hflow' ▸ ih (offset + r.len) flow'

/-- The peer comes from an address, and so do the records. -/
structure FlowsetResult.From (origin : Xaddr) (res : FlowsetResult) : Prop where
  origin_eq : res.peer.origin = origin
  agentAddr_eq : ∀ flow ∈ res.flows, flow.agentAddr = origin

/-- The flows of a data flowset have the origin of the peer as agent. -/
theorem dataLoop_agentAddr (fp : FlowPacket) (peer : PeerState) (hdr : Nf9Header)
    (sourceId : UInt32) (pkt : List UInt8) (template : PeerNf9Template)
    (records : List PeerNf9Record) (n offset : ℕ) :
    Ends (fun _ => True)
      (fun r => ∀ flows, r = some flows → ∀ flow ∈ flows, flow.agentAddr = peer.origin)
      (dataLoop fp peer hdr sourceId pkt template records n offset) := by
  induction n generalizing offset with
  | zero =>
    intro flows hflows flow hflow
    cases hflows
    cases hflow
  | succ n ih =>
    -- one record: the fields that are copied leave the agent alone
    have hone : Ends (fun _ => True)
        (fun r => ∀ flow, r = some flow → flow.agentAddr = peer.origin)
        (nf9FlowsetToStore fp peer hdr sourceId (pkt.drop offset) template.totalLen template
          records) := by
      rw [nf9FlowsetToStore]
      split_ifs
      · intro flow hflow
        cases hflow
      · refine (recordLoop_agentAddr _ _ _ _).map fun flow hflow flow' heq => ?_
        exact Option.some.inj heq ▸ hflow
    rw [dataLoop]
    refine hone.bind fun r hr => ?_
    cases r with
    | none =>
      intro flows hflows
      cases hflows
    | some flow =>
      refine (ih (offset + template.totalLen)).bind fun rest hrest flows hflows flow' hflow' => ?_
      obtain ⟨flows', rfl, rfl⟩ := Option.map_eq_some_iff.mp hflows
      rcases List.mem_cons.mp hflow' with rfl | hmem
      · exact hr _ rfl
      · exact hrest flows' rfl flow' hmem

/-- So have those of `process_netflow_v9_data`. -/
theorem processNetflowV9Data_from (fp : FlowPacket) (hdr : Nf9Header) (sourceId : UInt32)
    (pkt : List UInt8) (len : ℕ) (peer : PeerState) :
    Ends (fun _ => True) (FlowsetResult.From peer.origin)
      (processNetflowV9Data fp hdr sourceId pkt len peer) := by
  -- the ways out without a record
  have hno : ∀ (peer' : PeerState) (proceed : Bool), peer'.origin = peer.origin →
      FlowsetResult.From peer.origin { peer := peer', proceed := proceed } :=
    fun peer' proceed horigin => ⟨horigin, fun flow hflow => absurd hflow List.not_mem_nil⟩
  rw [processNetflowV9Data]
  split_ifs
  · exact hno _ _ rfl
  refine Ends.bind (P := fun _ => True) (by cases fetchNtohs pkt 0 <;> trivial)
    fun templateId _ => ?_
  cases peer.findTemplate sourceId templateId with
  | none => exact hno _ _ rfl
  | some template =>
  cases hrecords : template.records with
  | none =>
    simp only [hrecords]
    trivial
  | some records =>
  simp only [hrecords]
  split_ifs
  · trivial
  · exact hno _ _ rfl
  · refine (dataLoop_agentAddr ..).bind fun r hr => ?_
    cases r with
    | none => exact hno _ _ rfl
    | some flows => exact ⟨rfl, hr flows rfl⟩

/-- A template does not change the origin of a peer. -/
theorem PeerState.ensureTemplate_origin (limits : PeerLimits) (sourceId : UInt32)
    (templateId : UInt16) (peer : PeerState) :
    Ends (fun _ => True) (·.origin = peer.origin)
      (peer.ensureTemplate limits sourceId templateId) := by
  have hsource : Ends (fun _ => True) (·.origin = peer.origin)
      (peer.ensureSource limits sourceId) := by
    rw [ensureSource, newSource]
    split_ifs <;> trivial
  rw [ensureTemplate]
  split_ifs
  · rfl
  · refine hsource.bind fun peer₁ horigin => ?_
    cases peer₁.lookupSource sourceId with
    | none => trivial
    | some nf9src =>
      refine Ends.bind (P := fun _ => True) (by cases nf9src.newTemplate limits templateId <;> trivial)
        fun nf9src' _ => horigin

/-- Templates do not change the origin of a peer. -/
theorem templateLoop_from (limits : PeerLimits) (sourceId : UInt32) (pkt : List UInt8)
    (len fuel offset : ℕ) (peer : PeerState) :
    Ends (fun _ => True) (FlowsetResult.From peer.origin)
      (templateLoop limits sourceId pkt len fuel offset peer) := by
  induction fuel generalizing offset peer with
  | zero => trivial
  | succ fuel ih =>
    have hload : ∀ k, Ends (fun _ => True) (fun _ => True) (fetchNtohs pkt k) := fun k => by
      cases fetchNtohs pkt k <;> trivial
    rw [templateLoop]
    split_ifs
    · exact ⟨rfl, fun flow hflow => absurd hflow List.not_mem_nil⟩
    refine (hload offset).bind fun templateId _ => (hload (offset + 2)).bind fun count _ => ?_
    refine Ends.bind (P := fun _ => True)
      (by cases templateRecords limits pkt len count.toNat (offset + 4) [] 0 <;> trivial)
      fun r _ => ?_
    cases r with
    | none => exact ⟨rfl, fun flow hflow => absurd hflow List.not_mem_nil⟩
    | some x =>
      obtain ⟨recs, totalSize, offset'⟩ := x
      refine (peer.ensureTemplate_origin limits sourceId templateId).bind fun peer₁ horigin => ?_
      exact horigin ▸ ih offset' (peer₁.fillTemplate sourceId templateId recs totalSize)

/-- The flows of a flowset have the origin of the peer as agent. -/
theorem processFlowset_from (limits : PeerLimits) (fp : FlowPacket) (hdr : Nf9Header)
    (sourceId : UInt32) (flowsetId : UInt16) (pkt : List UInt8) (len : ℕ) (peer : PeerState) :
    Ends (fun _ => True) (FlowsetResult.From peer.origin)
      (processFlowset limits fp hdr sourceId flowsetId pkt len peer) := by
  rw [processFlowset]
  split_ifs
  · rw [processNetflowV9Template]
    split_ifs
    · exact ⟨rfl, fun flow hflow => absurd hflow List.not_mem_nil⟩
    · refine Ends.bind (P := fun _ => True) (by cases fetchNtohs pkt 0 <;> trivial)
        fun flowsetId' _ => ?_
      split_ifs
      · trivial
      · exact templateLoop_from ..
  · exact ⟨rfl, fun flow hflow => absurd hflow List.not_mem_nil⟩
  · exact processNetflowV9Data_from ..

/-- So have those of all flowsets. -/
theorem flowsetLoop_from (mem : Memory) (limits : PeerLimits) (fp : FlowPacket) (hdr : Nf9Header)
    (sourceId : UInt32) {origin : Xaddr} (fuel offset : ℕ) {res : FlowsetResult}
    (h : res.From origin) :
    Ends (fun _ => True) (FlowsetResult.From origin)
      (flowsetLoop mem limits fp hdr sourceId fuel offset res) := by
  induction fuel generalizing offset res with
  | zero => trivial
  | succ fuel ih =>
    have hload : ∀ k, Ends (fun _ => True) (fun _ => True) (fetchNtohs (mem.packet fp) k) :=
      fun k => by cases fetchNtohs (mem.packet fp) k <;> trivial
    have hshort : FlowsetResult.From origin
        { peer := res.peer.invalid, flows := res.flows, proceed := false } :=
      ⟨h.origin_eq, h.agentAddr_eq⟩
    rw [flowsetLoop]
    by_cases hend : offset ≥ fp.packet.length
    · rw [if_pos hend]
      exact hshort
    rw [if_neg hend]
    refine (hload offset).bind fun flowsetId _ => (hload (offset + 2)).bind fun length _ => ?_
    by_cases hfit : offset + length.toNat > fp.packet.length
    · simp only [if_pos hfit]
      exact hshort
    simp only [if_neg hfit]
    refine (processFlowset_from ..).bind fun next hnext => ?_
    rw [h.origin_eq] at hnext
    -- the records of the earlier flowsets, and those of this one
    have hboth : FlowsetResult.From origin { next with flows := res.flows ++ next.flows } := by
      refine ⟨hnext.origin_eq, fun flow hflow => ?_⟩
      rcases List.mem_append.mp hflow with hold | hnew
      · exact h.agentAddr_eq flow hold
      · exact hnext.agentAddr_eq flow hnew
    split_ifs
    · exact hboth
    · exact hboth
    · exact ih (offset + length.toNat) hboth

/-- The flows of a datagram of version 9 have the origin of the peer as agent. -/
theorem processNetflowV9_from (mem : Memory) (limits : PeerLimits) (fuel : ℕ) (fp : FlowPacket)
    (peer : PeerState) :
    Ends (fun _ => True)
      (fun r => r.1.origin = peer.origin ∧ ∀ flow ∈ r.2, flow.agentAddr = peer.origin)
      (processNetflowV9 mem limits fuel fp peer) := by
  rw [processNetflowV9]
  split_ifs
  · exact ⟨rfl, fun flow hflow => absurd hflow List.not_mem_nil⟩
  · have hstart : FlowsetResult.From peer.origin { peer := peer, proceed := true } :=
      ⟨rfl, fun flow hflow => absurd hflow List.not_mem_nil⟩
    refine (flowsetLoop_from mem limits fp _ _ fuel 20 hstart).bind fun res hres => ?_
    split_ifs
    · exact ⟨hres.origin_eq, hres.agentAddr_eq⟩
    · exact ⟨hres.origin_eq, hres.agentAddr_eq⟩

/-- The flows of a datagram of version 1 have its source as agent. -/
theorem decodeNetflowV1_agentAddr {tvUsec : ℤ} {fp : FlowPacket} {flows : List StoreFlowComplete}
    (h : decodeNetflowV1 tvUsec fp = some flows) :
    ∀ flow ∈ flows, flow.agentAddr = fp.flowSource := by
  rw [decodeNetflowV1] at h
  split_ifs at h
  obtain rfl := Option.some.inj h
  intro flow hflow
  obtain ⟨i, -, rfl⟩ := List.mem_map.mp hflow
  rfl

/-- The flows of a datagram of version 5 have its source as agent. -/
theorem decodeNetflowV5_agentAddr {fp : FlowPacket} {flows : List StoreFlowComplete}
    (h : decodeNetflowV5 fp = some flows) : ∀ flow ∈ flows, flow.agentAddr = fp.flowSource := by
  rw [decodeNetflowV5] at h
  split_ifs at h
  obtain rfl := Option.some.inj h
  intro flow hflow
  obtain ⟨i, -, rfl⟩ := List.mem_map.mp hflow
  rfl

/-- The flows of a datagram of version 7 have its source as agent. -/
theorem decodeNetflowV7_agentAddr {fp : FlowPacket} {flows : List StoreFlowComplete}
    (h : decodeNetflowV7 fp = some flows) : ∀ flow ∈ flows, flow.agentAddr = fp.flowSource := by
  rw [decodeNetflowV7] at h
  split_ifs at h
  obtain rfl := Option.some.inj h
  intro flow hflow
  obtain ⟨i, -, rfl⟩ := List.mem_map.mp hflow
  rfl

/-- A decoder leaves the address of the peer alone, and a record has that address or the one the
packet is attributed to. -/
theorem processVersion_from (limits : PeerLimits) (mem : Unwritten) (fp : FlowPacket)
    (peer : PeerState) :
    Ends (fun _ => True)
      (fun r => r.1.origin = peer.origin ∧
        ∀ flow ∈ r.2, flow.agentAddr = fp.flowSource ∨ flow.agentAddr = peer.origin)
      (processVersion limits mem fp peer) := by
  rw [processVersion]
  split_ifs
  · rw [processNetflowV1]
    cases hdecode : decodeNetflowV1 mem.tvUsec fp with
    | none => exact ⟨rfl, fun flow hflow => absurd hflow List.not_mem_nil⟩
    | some flows =>
      exact ⟨rfl, fun flow hflow => .inl (decodeNetflowV1_agentAddr hdecode flow hflow)⟩
  · rw [processNetflowV5]
    cases hdecode : decodeNetflowV5 fp with
    | none => exact ⟨rfl, fun flow hflow => absurd hflow List.not_mem_nil⟩
    | some flows =>
      exact ⟨rfl, fun flow hflow => .inl (decodeNetflowV5_agentAddr hdecode flow hflow)⟩
  · rw [processNetflowV7]
    cases hdecode : decodeNetflowV7 fp with
    | none => exact ⟨rfl, fun flow hflow => absurd hflow List.not_mem_nil⟩
    | some flows =>
      exact ⟨rfl, fun flow hflow => .inl (decodeNetflowV7_agentAddr hdecode flow hflow)⟩
  -- version 9 takes the address of the peer, the others that of the packet
  · refine (processNetflowV9_from ..).imp (fun _ => id) fun r hr => ⟨hr.1, fun flow hflow => ?_⟩
    exact .inr (hr.2 flow hflow)
  · exact ⟨rfl, fun flow hflow => absurd hflow List.not_mem_nil⟩

/-! ## What the collector keeps -/

/-- A peer that is found has an origin equal to the address. -/
theorem Peers.findPeer_eq_some {peers : Peers} {addr : Xaddr} {peer : PeerState}
    (h : peers.findPeer addr = some peer) :
    peer ∈ peers.peerList ∧ addrCmp addr peer.origin = 0 :=
  ⟨List.mem_of_find?_eq_some h, by simpa [hasAddr] using List.find?_some h⟩

/-- Addresses that `addr_cmp` takes to be equal are allowed by the same configurations. -/
theorem FlowdConfig.matches_congr (conf : FlowdConfig) {a b : Xaddr} (ha : a.Valid) (hb : b.Valid)
    (h : addrCmp a b = 0) : conf.matches a = conf.matches b := by
  simp only [FlowdConfig.matches, addrNetmatch_congr ha hb h]

/-- Equal addresses are allowed or refused alike. -/
theorem FlowdConfig.allows_congr (conf : FlowdConfig) {a b : Xaddr} (ha : a.Valid) (hb : b.Valid)
    (h : addrCmp a b = 0) : conf.allows a = conf.allows b := by
  rw [allows, allows, conf.matches_congr ha hb h]

namespace Collector

/-- The address can be told apart from others, and the configuration allows it. -/
def Admissible (c : Collector) (addr : Xaddr) : Prop := addr.Valid ∧ c.conf.allows addr = true

/-- The peers are counted, and the peers and the packets in the queue have allowed addresses. -/
structure Inv (c : Collector) : Prop where
  counted : c.peers.numPeers = c.peers.peerList.length
  peers : ∀ peer ∈ c.peers.peerList, c.Admissible peer.origin
  queue : ∀ fp ∈ c.inputQueue, c.Admissible fp.flowSource

/-- A datagram is attributed to an address of a known family. -/
theorem attribution_valid {d : Datagram} {heap : Mem} {addr : Xaddr}
    (h : d.attribution heap = .agent addr) : addr.Valid := by
  have hofXaddr : ∀ o : Option Xaddr, (∀ a, o = some a → a.Valid) →
      Attribution.ofXaddr o = .agent addr → addr.Valid := by
    intro o ho heq
    cases o with
    | none => cases heq
    | some a =>
      cases heq
      exact ho addr rfl
  have hsource : ∀ offset, d.emulatorSource heap offset = .agent addr → addr.Valid := by
    intro offset hsource
    rw [Datagram.emulatorSource] at hsource
    split_ifs at hsource
    · exact hofXaddr _ (fun _ => addrSaToXaddr_valid) hsource
    · exact hofXaddr _ (fun _ => addrSaToXaddr_valid) hsource
  rw [Datagram.attribution] at h
  split_ifs at h
  · exact hsource 16 h
  · exact hsource 24 h

/-- Putting a peer back keeps how many there are. -/
theorem length_putPeer {peers : Peers} {addr : Xaddr} {peer : PeerState} (peer' : PeerState)
    (h : peers.findPeer addr = some peer) :
    (peers.putPeer addr peer peer').numPeers = peers.numPeers ∧
      (peers.putPeer addr peer peer').peerList.length = peers.peerList.length := by
  rw [Peers.putPeer]
  split_ifs
  · exact ⟨rfl, List.length_modify ..⟩
  · obtain ⟨hmem, hcmp⟩ := Peers.findPeer_eq_some h
    have hpos := List.length_pos_of_mem hmem
    have herase : (peers.peerList.eraseP (Peers.hasAddr addr)).length = peers.peerList.length - 1 :=
      List.length_eraseP_of_mem hmem (by simp [Peers.hasAddr, hcmp])
    refine ⟨rfl, ?_⟩
    rw [List.length_cons, herase]
    omega

/-- Making a peer counts it, and its address is the only new one. -/
theorem newPeer_ends {limits : PeerLimits} {allowed : Xaddr → Bool} {peers : Peers}
    (hcounted : peers.numPeers = peers.peerList.length) (addr : Xaddr) :
    Ends (fun _ => limits.maxPeers = 0)
      (fun peers' => peers'.numPeers = peers'.peerList.length ∧
        ∀ p ∈ peers'.peerList, p = { origin := addr } ∨ p ∈ peers.peerList)
      (peers.newPeer limits allowed addr) := by
  rw [Peers.newPeer]
  split_ifs with hallowed hfull hnil
  · exact ⟨hcounted, fun p => .inr⟩
  · rw [hcounted, hnil] at hfull
    exact Nat.lt_one_iff.mp hfull
  · refine ⟨?_, fun p hp => ?_⟩
    · have hpos := List.length_pos_of_ne_nil hnil
      simp only [List.length_cons, List.length_dropLast]
      omega
    · exact (List.mem_cons.mp hp).imp_right fun h => (List.dropLast_sublist _).subset h
  · exact ⟨by simp [hcounted], fun p => List.mem_cons.mp⟩

variable {limits : PeerLimits} {c c' : Collector}

/-- A peer with the address stands for it. -/
theorem Inv.admissible_of_findPeer (h : c.Inv) {addr : Xaddr} (haddr : addr.Valid)
    {peer : PeerState} (hfind : c.peers.findPeer addr = some peer) : c.Admissible addr := by
  obtain ⟨hmem, hcmp⟩ := Peers.findPeer_eq_some hfind
  obtain ⟨hvalid, hallows⟩ := h.peers peer hmem
  exact ⟨haddr, (c.conf.allows_congr haddr hvalid hcmp).trans hallows⟩

/-- Only allowed addresses are admitted. -/
theorem Inv.findOrNewPeer_ends (h : c.Inv) (limits : PeerLimits) (allocs : Allocs) {addr : Xaddr}
    (haddr : addr.Valid) :
    Ends (fun _ => limits.maxPeers = 0 ∨ allocs.peer = false)
      (fun r => if c.conf.allows addr then
          ∃ peers, r = some peers ∧ peers.numPeers = peers.peerList.length ∧
            ∀ peer ∈ peers.peerList, c.Admissible peer.origin
        else r = none)
      (c.findOrNewPeer limits allocs addr) := by
  rw [findOrNewPeer]
  cases hfind : c.peers.findPeer addr with
  | some peer =>
    have hallows := (h.admissible_of_findPeer haddr hfind).2
    rw [hallows]
    exact ⟨c.peers, rfl, h.counted, h.peers⟩
  | none =>
    -- a peer is made only for an address that the access list lets in
    by_cases hallows : c.conf.allows addr = true
    · simp only [hallows, Bool.not_true, Bool.false_eq_true, if_false]
      cases halloc : allocs.peer with
      | false => exact .inr rfl
      | true =>
        apply ((newPeer_ends h.counted addr).imp (fun _ => .inl) fun _ => id).map
        rintro peers ⟨hcounted, hpeers⟩
        refine ⟨peers, rfl, hcounted, fun p hp => ?_⟩
        rcases hpeers p hp with rfl | hold
        · exact ⟨haddr, hallows⟩
        · exact h.peers p hold
    · simp only [hallows, Bool.not_false, if_true]
      rw [ends_ok, if_neg Bool.false_ne_true]

/-- Counting an invalid packet changes no address. -/
theorem countInvalid_keeps {peers : Peers} {P : Xaddr → Prop}
    (hcounted : peers.numPeers = peers.peerList.length)
    (hpeers : ∀ peer ∈ peers.peerList, P peer.origin) (addr : Xaddr) :
    (countInvalid peers addr).numPeers = (countInvalid peers addr).peerList.length ∧
      ∀ peer ∈ (countInvalid peers addr).peerList, P peer.origin := by
  rw [countInvalid]
  cases hfind : peers.findPeer addr with
  | none => exact ⟨hcounted, hpeers⟩
  | some peer =>
    obtain ⟨hnum, hlength⟩ := length_putPeer peer.invalid hfind
    refine ⟨hnum.trans (hcounted.trans hlength.symm), fun p hp => ?_⟩
    rcases Peers.mem_putPeer hp with rfl | hold
    · exact hpeers peer (Peers.findPeer_eq_some hfind).1
    · exact hpeers p hold

/-- What `receive_packet` does with a datagram: nothing, unless it is attributed to an admissible
agent. That agent then has a peer, and the datagram is enqueued if it has a header and memory can be
had for it. -/
theorem Inv.receivePacket_ends (h : c.Inv) (limits : PeerLimits) (allocs : Allocs) (heap : Mem)
    (recv : Option Datagram) :
    Ends (fun _ => limits.maxPeers = 0 ∨ allocs.peer = false)
      (fun r => r.1 = c ∨ ∃ d addr, recv = some d ∧ d.attribution heap = .agent addr ∧
        c.Admissible addr ∧ r.1.conf = c.conf ∧
        r.1.peers.numPeers = r.1.peers.peerList.length ∧
        (∀ peer ∈ r.1.peers.peerList, c.Admissible peer.origin) ∧
        (r.1.inputQueue = c.inputQueue ∨ r.1.inputQueue = c.inputQueue ++ [packetOf d addr]))
      (c.receivePacket limits allocs heap recv) := by
  cases recv with
  | none => exact .inl rfl
  | some d =>
  rw [receivePacket]
  split_ifs
  · exact .inl rfl
  cases hattr : d.attribution heap with
  | unsupported => exact .inl rfl
  | invalid => exact .inl rfl
  | agent addr =>
  have haddr := attribution_valid hattr
  refine (h.findOrNewPeer_ends limits allocs haddr).bind fun r hr => ?_
  -- an address that the access list refuses leaves the collector as it is
  split_ifs at hr with hallows
  · obtain ⟨peers, rfl, hcounted, hpeers⟩ := hr
    refine .inr ⟨d, addr, rfl, hattr, ⟨haddr, hallows⟩, ?_⟩
    rw [queuePacket]
    split_ifs
    · obtain ⟨hcounted', hpeers'⟩ := countInvalid_keeps hcounted hpeers addr
      exact ⟨rfl, hcounted', hpeers', .inl rfl⟩
    · exact ⟨rfl, hcounted, hpeers, .inl rfl⟩
    · exact ⟨rfl, hcounted, hpeers, .inr rfl⟩
  · obtain rfl := hr
    exact .inl rfl

/-- What a round of `process_input_queue` does: the first packet is gone, and its records have the
address of an agent that is allowed. -/
theorem Inv.processPacket_ends (h : c.Inv) (limits : PeerLimits) (mem : Unwritten) :
    Ends (fun _ => True)
      (fun r => r.1.Inv ∧ r.1.conf = c.conf ∧ ∀ flow ∈ r.2, c.Admissible flow.agentAddr)
      (c.processPacket limits mem) := by
  rw [processPacket]
  cases hqueue : c.inputQueue with
  | nil => exact ⟨h, rfl, fun flow hflow => absurd hflow List.not_mem_nil⟩
  | cons fp inputQueue =>
  have hfp : c.Admissible fp.flowSource := h.queue fp (hqueue ▸ List.mem_cons_self)
  have hrest : ∀ x ∈ inputQueue, c.Admissible x.flowSource :=
    fun x hx => h.queue x (hqueue ▸ List.mem_cons_of_mem fp hx)
  cases hfind : c.peers.findPeer fp.flowSource with
  | none =>
    simp only [hfind]
    exact ⟨⟨h.counted, h.peers, hrest⟩, rfl, fun flow hflow => absurd hflow List.not_mem_nil⟩
  | some peer =>
    have hpeer : c.Admissible peer.origin := h.peers peer (Peers.findPeer_eq_some hfind).1
    simp only [hfind]
    refine (processVersion_from limits mem fp peer).bind fun r hr => ?_
    obtain ⟨horigin, hagent⟩ := hr
    obtain ⟨hnum, hlength⟩ := length_putPeer r.1 hfind
    refine ⟨⟨hnum.trans (h.counted.trans hlength.symm), fun p hp => ?_, hrest⟩, rfl,
      fun flow hflow => ?_⟩
    · rcases Peers.mem_putPeer hp with rfl | hold
      · exact horigin ▸ hpeer
      · exact h.peers p hold
    -- the decoder takes the address of the packet or that of the peer
    · rcases hagent flow hflow with heq | heq
      · exact heq ▸ hfp
      · exact heq ▸ hpeer

/-- A step keeps the invariant. -/
theorem Step.inv (h : c.Inv) {flows : List StoreFlowComplete} (hstep : Step limits c flows c') :
    c'.Inv := by
  cases hstep with
  | reconfigure conf hempty =>
    -- the access list is reloaded while the queue is empty
    have hno : ∀ fp ∈ c.inputQueue, ¬ True := fun fp hfp => by
      rw [hempty] at hfp
      cases hfp
    rw [Peers.scrub]
    split_ifs with hnil
    · refine ⟨h.counted, fun p hp => ⟨(h.peers p hp).1, ?_⟩, fun fp hfp => (hno fp hfp trivial).elim⟩
      rw [FlowdConfig.allows, hnil]
      rfl
    · refine ⟨?_, fun p hp => ?_, fun fp hfp => (hno fp hfp trivial).elim⟩
      · have hle := List.length_filter_le (fun peer => conf.matches peer.origin) c.peers.peerList
        show c.peers.numPeers - (c.peers.peerList.length - _) = List.length (List.filter _ _)
        rw [h.counted]
        omega
      · obtain ⟨hmem, hmatches⟩ := List.mem_filter.mp hp
        refine ⟨(h.peers p hmem).1, ?_⟩
        rw [FlowdConfig.allows, hmatches, Bool.or_true]
  | receive allocs heap recv hrun =>
    have hends := h.receivePacket_ends limits allocs heap recv
    rw [hrun] at hends
    rcases hends with rfl | ⟨d, addr, -, -, haddr, hconf, hcounted, hpeers, hqueue⟩
    · exact h
    have hadmissible : ∀ a, c.Admissible a → c'.Admissible a := fun a ha => ⟨ha.1, hconf ▸ ha.2⟩
    refine ⟨hcounted, fun p hp => hadmissible _ (hpeers p hp), fun fp hfp => hadmissible _ ?_⟩
    rcases hqueue with heq | heq
    · exact h.queue fp (heq ▸ hfp)
    · rcases List.mem_append.mp (heq ▸ hfp) with hold | hnew
      · exact h.queue fp hold
      · exact List.mem_singleton.mp hnew ▸ haddr
  | process mem hrun =>
    have hends := h.processPacket_ends limits mem
    rw [hrun] at hends
    exact hends.1

/-- The invariant holds in every reachable state. -/
theorem Reachable.inv (h : Reachable limits c) : c.Inv := by
  induction h with
  | start conf =>
    exact ⟨rfl, fun p hp => absurd hp List.not_mem_nil, fun fp hfp => absurd hfp List.not_mem_nil⟩
  | step hc hstep ih => exact hstep.inv ih

/-! ## Which datagrams get into the queue -/

/-- A datagram attributed to an allowed agent becomes a packet of the queue. -/
theorem Inv.receivePacket_agent (h : c.Inv) (limits : PeerLimits) (hmax : 1 ≤ limits.maxPeers)
    {d : Datagram} {heap : Mem} (hlen : 4 ≤ d.packet.length) {addr : Xaddr}
    (hattr : d.attribution heap = .agent addr) (hallows : c.conf.allows addr = true) :
    ∃ peers, c.receivePacket limits {} heap (some d) = .ok ({ c with
      peers := peers
      inputQueue := c.inputQueue ++ [packetOf d addr] }, some 1) := by
  have hends := h.findOrNewPeer_ends limits {} (attribution_valid hattr)
  cases hfound : c.findOrNewPeer limits {} addr with
  | error e =>
    rw [hfound] at hends
    rcases hends with hzero | halloc
    · omega
    · cases halloc
  | ok r =>
    rw [hfound, ends_ok, if_pos hallows] at hends
    obtain ⟨peers, rfl, -⟩ := hends
    refine ⟨peers, ?_⟩
    rw [receivePacket, if_neg (by decide), hattr]
    simp only [hfound, ok_bind]
    rw [queuePacket, if_neg (Nat.not_lt.mpr hlen), if_neg (by decide)]
    rfl

/-- One attributed to another address leaves the collector as it is. -/
theorem Inv.receivePacket_rejected (h : c.Inv) (limits : PeerLimits) (allocs : Allocs)
    {d : Datagram} {heap : Mem}
    (hattr : ∀ addr, d.attribution heap = .agent addr → c.conf.allows addr = false) :
    ∃ ret, c.receivePacket limits allocs heap (some d) = .ok (c, ret) := by
  rw [receivePacket]
  split_ifs
  · exact ⟨_, rfl⟩
  cases hagent : d.attribution heap with
  | unsupported => exact ⟨_, rfl⟩
  | invalid => exact ⟨_, rfl⟩
  | agent addr =>
  have hallows := hattr addr hagent
  -- the peers have been admitted, so none of them has the address
  have hfind : c.peers.findPeer addr = none := by
    cases hpeer : c.peers.findPeer addr with
    | none => rfl
    | some peer =>
      have hadmissible := h.admissible_of_findPeer (attribution_valid hagent) hpeer
      exact absurd (hallows.symm.trans hadmissible.2) Bool.false_ne_true
  have hfound : c.findOrNewPeer limits allocs addr = .ok none := by
    rw [findOrNewPeer, hfind]
    simp only [hallows, Bool.not_false, if_true]
  refine ⟨some 1, ?_⟩
  dsimp only
  rw [hfound]
  rfl

end Collector

/-- The address a header names, where `process_packet` has a decoder for its version and there is
one that is not 0. -/
def Datagram.monitor (d : Datagram) (heap : Mem) : Option InetText.InAddr :=
  let offset := if d.version heap = 1 then 16 else 24
  if (d.tmpPacket heap).u32 offset = 0 then none else some ((d.tmpPacket heap).octets offset 4)

/-- `receive_packet` and `process_packet` read the same version. -/
theorem Datagram.version_packetOf {d : Datagram} (heap : Mem) (h : 4 ≤ d.packet.length)
    (addr : Xaddr) : (Collector.packetOf d addr).version = d.version heap := by
  obtain ⟨_ | ⟨a, _ | ⟨b, rest⟩⟩, hpacket⟩ : ∃ l, d.packet = l := ⟨_, rfl⟩
  · simp [hpacket] at h
  · simp [hpacket] at h
  · have hcopy : ∀ i, d.tmpPacket heap i = (a :: b :: rest).getD i (heap i) := fun i => by
      rw [Datagram.tmpPacket, hpacket]
    rw [FlowPacket.version, Datagram.version, Mem.u16, hcopy, hcopy, Collector.packetOf, hpacket]
    rfl

/-- A socket address that is taken has at least the size of one of IPv4. -/
theorem le_fromlen_of_addrSaToXaddr {sa : SockAddr} {slen : ℕ} {a : Xaddr}
    (h : addrSaToXaddr sa slen = some a) : 16 ≤ slen := by
  cases sa with
  | inet sinAddr =>
    rw [addrSaToXaddr] at h
    split_ifs at h
    omega
  | inet6 sin6Addr sin6ScopeId =>
    rw [addrSaToXaddr] at h
    split_ifs at h
    omega
  | other => cases h

/-- The agent of a datagram of version 1 or 5. -/
theorem Datagram.attribution_eq {d : Datagram} {heap : Mem} {addr : Xaddr}
    (hversion : d.version heap = 1 ∨ d.version heap = 5)
    (hsender : addrSaToXaddr d.sender d.fromlen = some addr) :
    d.attribution heap = .agent (match d.monitor heap with
      | some monitor => Xaddr.copy {} (List.ofFn monitor) afInet
      | none => addr) := by
  have hfromlen := le_fromlen_of_addrSaToXaddr hsender
  have hsource : d.attribution heap =
      d.emulatorSource heap (if d.version heap = 1 then 16 else 24) := by
    rw [attribution]
    rcases hversion with h | h
    · rw [if_pos h, if_pos h]
    · rw [if_neg (by rw [h]; decide), if_pos h, if_neg (by rw [h]; decide)]
  rw [hsource, emulatorSource, monitor]
  generalize (if d.version heap = 1 then 16 else 24) = offset
  by_cases hzero : (d.tmpPacket heap).u32 offset = 0
  · rw [if_neg (by rw [hzero]; decide), if_pos hzero, hsender, Attribution.ofXaddr]
  · rw [if_pos (UInt32.pos_iff_ne_zero.mpr hzero), if_neg hzero, addrSaToXaddr,
      if_neg (Nat.not_lt.mpr hfromlen), Attribution.ofXaddr]

namespace Collector

variable {limits : PeerLimits} {c : Collector}

/-- With all allocations a datagram becomes a packet at the end of the input queue, with the bytes
received and the receive time. -/
def Queues (limits : PeerLimits) (heap : Mem) (c : Collector) (d : Datagram) : Prop :=
  ∃ c' ret fp, c.receivePacket limits {} heap (some d) = .ok (c', ret) ∧
    c'.inputQueue = c.inputQueue ++ [fp] ∧ fp.packet = d.packet ∧
    fp.recvSec = d.recvSec ∧ fp.recvUsec = d.recvUsec

/-- A datagram of an address that is not allowed is not queued. -/
theorem Inv.not_queues (h : c.Inv) {d : Datagram} {heap : Mem}
    (hattr : ∀ addr, d.attribution heap = .agent addr → c.conf.allows addr = false) :
    ¬ c.Queues limits heap d := by
  rintro ⟨c', ret, fp, hrun, hqueue, -⟩
  obtain ⟨ret', hrun'⟩ := h.receivePacket_rejected limits {} hattr
  obtain rfl : c = c' := congrArg Prod.fst (Except.ok.inj (hrun'.symm.trans hrun))
  exact absurd (congrArg List.length hqueue) (by simp)

/-- A datagram from an address that is allowed gets into the input queue exactly when its version,
as `process_packet` reads it, is 1 or 5, and an address named in the header is allowed too. -/
theorem Reachable.queues_iff (hc : Reachable limits c) (hmax : 1 ≤ limits.maxPeers) (heap : Mem)
    {d : Datagram} (hlen : 4 ≤ d.packet.length) {addr : Xaddr}
    (hsender : addrSaToXaddr d.sender d.fromlen = some addr)
    (hallows : c.conf.allows addr = true) :
    c.Queues limits heap d ↔
      ((packetOf d addr).version = 1 ∨ (packetOf d addr).version = 5) ∧
        ∀ monitor, d.monitor heap = some monitor →
          c.conf.allows (Xaddr.copy {} (List.ofFn monitor) afInet) = true := by
  rw [Datagram.version_packetOf heap hlen]
  constructor
  · intro hqueued
    -- an unsupported version has no attribution, and a refused monitor is not admitted
    have hsupported : d.version heap = 1 ∨ d.version heap = 5 := by
      by_contra hneither
      rw [not_or] at hneither
      refine hc.inv.not_queues (fun a ha => ?_) hqueued
      rw [Datagram.attribution, if_neg hneither.1, if_neg hneither.2] at ha
      cases ha
    refine ⟨hsupported, fun monitor hmonitor => ?_⟩
    by_contra hno
    refine hc.inv.not_queues (fun a ha => ?_) hqueued
    rw [Datagram.attribution_eq hsupported hsender, hmonitor] at ha
    cases ha
    exact Bool.not_eq_true _ ▸ hno
  · rintro ⟨hsupported, hmonitor⟩
    have hattr := Datagram.attribution_eq hsupported hsender
    -- the agent is the monitor of the header if there is one, and the sender otherwise
    have hagent : c.conf.allows (match d.monitor heap with
        | some monitor => Xaddr.copy {} (List.ofFn monitor) afInet
        | none => addr) = true := by
      cases hm : d.monitor heap with
      | none => exact hallows
      | some monitor => exact hmonitor monitor hm
    obtain ⟨peers, hrun⟩ := hc.inv.receivePacket_agent limits hmax hlen hattr hagent
    exact ⟨_, _, _, hrun, rfl, rfl, rfl, rfl⟩

/-- An allowed device. -/
def device : InetText.InAddr := ![10, 0, 0, 1]

/-- Only the device may send. -/
def deviceConf : FlowdConfig :=
  { allowedDevices := [⟨Xaddr.copy {} (List.ofFn device) afInet, 32⟩] }

/-- The start of a packet with a version, and an address where the emulator puts one in version
5. -/
def headerBytes (version : UInt8) (monitor : InetText.InAddr) : List UInt8 :=
  [0, version] ++ List.replicate 22 0 ++ List.ofFn monitor

/-- It comes from an IPv4 address. -/
def headerFrom (sender : InetText.InAddr) (version : UInt8) (monitor : InetText.InAddr) :
    Datagram where
  sender := .inet sender
  fromlen := 16
  packet := headerBytes version monitor
  length_le := show 28 ≤ 2048 by decide

/-- The sample configuration allows its device. -/
theorem deviceConf_allows :
    deviceConf.allows (Xaddr.copy {} (List.ofFn device) afInet) = true := by
  decide +kernel

/-- A datagram of version 5 gets into the queue. -/
theorem queues_version5 :
    Collector.Queues {} (fun _ => 0) { conf := deviceConf } (headerFrom device 5 0) := by
  have hmonitor : (headerFrom device 5 0).monitor (fun _ => 0) = none := by
    have hversion : (headerFrom device 5 0).version (fun _ => 0) = 5 := by
      rw [← Datagram.version_packetOf _ (by decide) {}]
      decide
    have hzero : ((headerFrom device 5 0).tmpPacket fun _ => 0).u32 24 = 0 := rfl
    rw [Datagram.monitor, hversion]
    exact if_pos hzero
  refine (Reachable.queues_iff (.start deviceConf) (by decide) (fun _ => 0) (by decide) rfl
    deviceConf_allows).mpr ⟨.inr (by decide), fun monitor hsome => ?_⟩
  exact absurd (hmonitor.symm.trans hsome) (Option.some_ne_none monitor).symm

/-- A datagram of version 9, which `process_packet` has a decoder for, does not. -/
theorem not_queues_version9 :
    Reachable {} { conf := deviceConf } ∧ 4 ≤ (headerFrom device 9 0).packet.length ∧
      addrSaToXaddr (headerFrom device 9 0).sender (headerFrom device 9 0).fromlen =
        some (Xaddr.copy {} (List.ofFn device) afInet) ∧
      deviceConf.allows (Xaddr.copy {} (List.ofFn device) afInet) = true ∧
      (packetOf (headerFrom device 9 0) (Xaddr.copy {} (List.ofFn device) afInet)).version ∈
        decodedVersions ∧
      ¬ Collector.Queues {} (fun _ => 0) { conf := deviceConf } (headerFrom device 9 0) := by
  have hstart : Reachable {} { conf := deviceConf } := .start deviceConf
  refine ⟨hstart, by decide, rfl, deviceConf_allows, by decide, ?_⟩
  refine hstart.inv.not_queues fun addr haddr => ?_
  have hversion : (headerFrom device 9 0).version (fun _ => 0) = 9 := rfl
  rw [Datagram.attribution, hversion, if_neg (by decide), if_neg (by decide)] at haddr
  cases haddr

/-! ## Who is rejected -/

/-- With devices in the configuration, a datagram that is attributed to no address one of them
matches leaves the collector as it is; the records of a step have an address that one of them
matches. -/
theorem Reachable.rejects (hc : Reachable limits c) (hdevices : c.conf.allowedDevices ≠ []) :
    (∀ allocs heap d,
        (∀ addr, d.attribution heap = .agent addr → ∀ ad ∈ c.conf.allowedDevices,
          addrNetmatch addr ad.addr ad.masklen.toNat ≠ 0) →
        ∃ ret, c.receivePacket limits allocs heap (some d) = .ok (c, ret)) ∧
      ∀ flows c', Step limits c flows c' → ∀ flow ∈ flows, ∃ ad ∈ c.conf.allowedDevices,
        addrNetmatch flow.agentAddr ad.addr ad.masklen.toNat = 0 := by
  -- with devices, the access list lets in what one of them matches
  have hallows : ∀ addr, c.conf.allows addr = c.conf.matches addr := fun addr => by
    rw [FlowdConfig.allows, List.isEmpty_eq_false_iff.mpr hdevices, Bool.false_or]
  constructor
  · intro allocs heap d hno
    refine hc.inv.receivePacket_rejected limits allocs fun addr haddr => ?_
    rw [hallows, FlowdConfig.matches, List.any_eq_false]
    exact fun ad had => by simpa using hno addr haddr ad had
  · intro flows c' hstep flow hflow
    -- only processing a packet makes records
    have hadmissible : c.Admissible flow.agentAddr := by
      cases hstep with
      | reconfigure conf hempty => cases hflow
      | receive allocs heap recv hrun => cases hflow
      | process mem hrun =>
        have hends := hc.inv.processPacket_ends limits mem
        rw [hrun] at hends
        exact hends.2.2 flow hflow
    have hmatches := (hallows _).symm.trans hadmissible.2
    obtain ⟨ad, had, heq⟩ := List.any_eq_true.mp hmatches
    exact ⟨ad, had, by simpa using heq⟩

/-- A datagram of version 5 from another address, which names no agent. -/
theorem rejects_other :
    (∀ allocs heap d,
        (∀ addr, d.attribution heap = .agent addr → ∀ ad ∈ deviceConf.allowedDevices,
          addrNetmatch addr ad.addr ad.masklen.toNat ≠ 0) →
        ∃ ret, Collector.receivePacket {} allocs heap { conf := deviceConf } (some d) =
          .ok ({ conf := deviceConf }, ret)) ∧
      ∀ flows c', Step {} { conf := deviceConf } flows c' → ∀ flow ∈ flows,
        ∃ ad ∈ deviceConf.allowedDevices, addrNetmatch flow.agentAddr ad.addr ad.masklen.toNat = 0 :=
  Reachable.rejects (.start deviceConf) (List.cons_ne_nil _ _)

/-- A datagram of version 5 from an address that no allowed device matches gets into the queue when
its header names one that is allowed. -/
theorem spoofed_queues :
    Reachable {} { conf := deviceConf } ∧ deviceConf.allowedDevices ≠ [] ∧
      (∀ ad ∈ deviceConf.allowedDevices,
        addrNetmatch (Xaddr.copy {} [192, 0, 2, 1] afInet) ad.addr ad.masklen.toNat ≠ 0) ∧
      addrSaToXaddr (headerFrom ![192, 0, 2, 1] 5 device).sender 16 =
        some (Xaddr.copy {} [192, 0, 2, 1] afInet) ∧
      Collector.Queues {} (fun _ => 0) { conf := deviceConf }
        (headerFrom ![192, 0, 2, 1] 5 device) := by
  have hstart : Reachable {} { conf := deviceConf } := .start deviceConf
  have hattr : (headerFrom ![192, 0, 2, 1] 5 device).attribution (fun _ => 0) =
      .agent (Xaddr.copy {} (List.ofFn device) afInet) := by
    have hmonitor :
        (headerFrom ![192, 0, 2, 1] 5 device).monitor (fun _ => 0) = some device := by
      decide +kernel
    rw [Datagram.attribution_eq (.inr (by decide)) rfl, hmonitor]
  refine ⟨hstart, List.cons_ne_nil _ _, by decide +kernel, rfl, ?_⟩
  obtain ⟨peers, hrun⟩ :=
    hstart.inv.receivePacket_agent {} (by decide) (by decide) hattr deviceConf_allows
  exact ⟨_, _, _, hrun, rfl, rfl, rfl, rfl⟩

end Collector

end Flowd
