import NetworkMonitoring.Flowd.Addr
import NetworkMonitoring.Flowd.NetFlow9Calls

/-!
# flowd — the peer table and runs of the collector

`struct peers` of `peer.h` with the functions of `peer.c` on it. The splay tree holds the peers of
`peer_list` in the order of their addresses, so looking up an address in it finds the peer of the
list that has the address. A run starts with an empty table; datagrams are received, which makes the
peer, and are processed later, in any order.

## Main results

* `Peers.run_noneEmpty`: the templates of a run in which no template without records arrives;
* `Peers.run_decodes`: in every run the templates are accepted ones, and decoding with them is safe.
-/

namespace Flowd

open Bytes ErrorLoops FueledLoops

/-- `struct peers`: the elements of `peer_list`, first element first, and the counters. -/
structure Peers where
  peerList : List PeerState := []
  numPeers : ℕ := 0
  numForced : ℕ := 0
  deriving DecidableEq

/-- Something that happens to the collector. -/
inductive Event where
  /-- A datagram from an address has been received. -/
  | received (flowSource : Xaddr)
  /-- A datagram is taken from the input queue; three bytes of the heap behind it can be loaded. -/
  | processed (behind : Fin 3 → UInt8) (fp : FlowPacket)

namespace Peers

/-- The peer has the address. -/
def hasAddr (addr : Xaddr) (peer : PeerState) : Bool := addrCmp addr peer.origin == 0

/-- `find_peer`. -/
def findPeer (peers : Peers) (addr : Xaddr) : Option PeerState := peers.peerList.find? (hasAddr addr)

/-- `new_peer`; `allowed` is its look at the allowed devices of the configuration. -/
def newPeer (limits : PeerLimits) (allowed : Xaddr → Bool) (peers : Peers) (addr : Xaddr) :
    Except Fault Peers :=
  if !allowed addr then .ok peers
  -- If we have overflowed our peer table, then kick out the LRU peer
  else if peers.numPeers + 1 > limits.maxPeers then
    if peers.peerList = [] then .error .pointer
    else .ok { peers with
      numForced := peers.numForced + 1
      peerList := { origin := addr } :: peers.peerList.dropLast }
  else .ok { peers with
    numPeers := peers.numPeers + 1
    peerList := { origin := addr } :: peers.peerList }

/-- What `receive_packet` does to the table. -/
def receivePacket (limits : PeerLimits) (allowed : Xaddr → Bool) (peers : Peers) (addr : Xaddr) :
    Except Fault Peers :=
  match peers.findPeer addr with
  | some _ => .ok peers
  | none => peers.newPeer limits allowed addr

/-- Replace the peer with an address. A packet that counts has come to `update_peer`, which pushes
the peer to the front of the LRU queue. -/
def putPeer (peers : Peers) (addr : Xaddr) (peer peer' : PeerState) : Peers :=
  if peer'.npackets = peer.npackets then
    let index := peers.peerList.findIdx (hasAddr addr)
    { peers with peerList := peers.peerList.modify index fun _ => peer' }
  else { peers with peerList := peer' :: peers.peerList.eraseP (hasAddr addr) }

/-- `process_packet`, for a packet of version 9. -/
def processPacket (limits : PeerLimits) (peers : Peers) (behind : Fin 3 → UInt8)
    (fp : FlowPacket) : Except Fault Peers :=
  match peers.findPeer fp.flowSource with
  -- expired between reception and processing
  | none => .ok peers
  | some peer => do
    let (peer', _) ← processNetflowV9 (.heap behind) limits fp.packet.length fp peer
    return peers.putPeer fp.flowSource peer peer'

/-- One event. -/
def step (limits : PeerLimits) (allowed : Xaddr → Bool) (peers : Peers) :
    Event → Except Fault Peers
  | .received flowSource => peers.receivePacket limits allowed flowSource
  | .processed behind fp => peers.processPacket limits behind fp

/-- A run of the collector. -/
def run (limits : PeerLimits) (allowed : Xaddr → Bool) (events : List Event) :
    Except Fault Peers :=
  events.foldlM (step limits allowed) {}

/-! ## What a run keeps -/

/-- Putting a peer back makes no other one. -/
theorem mem_putPeer {peers : Peers} {addr : Xaddr} {peer peer' p : PeerState}
    (h : p ∈ (peers.putPeer addr peer peer').peerList) : p = peer' ∨ p ∈ peers.peerList := by
  rw [putPeer] at h
  split_ifs at h
  · rcases mem_modify h with h | ⟨_, -, rfl⟩
    · exact .inr h
    · exact .inl rfl
  · exact (List.mem_cons.mp h).imp_right List.mem_of_mem_eraseP

/-- A peer in the table after a reception was there, or it is new. -/
theorem receivePacket_ends (limits : PeerLimits) (allowed : Xaddr → Bool) (peers : Peers)
    (addr : Xaddr) :
    Ends (· = .pointer)
      (fun peers' => ∀ p ∈ peers'.peerList, p = { origin := addr } ∨ p ∈ peers.peerList)
      (peers.receivePacket limits allowed addr) := by
  rw [receivePacket]
  cases peers.findPeer addr with
  | some peer => exact fun p => .inr
  | none =>
    show Ends _ _ (peers.newPeer limits allowed addr)
    rw [newPeer]
    split_ifs
    · exact fun p => .inr
    · rfl
    · exact fun p hp => (List.mem_cons.mp hp).imp_right fun h => (List.dropLast_sublist _).subset h
    · exact fun p => List.mem_cons.mp

variable {limits : PeerLimits} {allowed : Xaddr → Bool} {E : Fault → Prop} {I : PeerState → Prop}

/-- An event keeps an invariant of the peers that new peers have and that processing a datagram
keeps. -/
theorem step_ends (hpointer : E .pointer) (hnew : ∀ addr, I { origin := addr }) {peers : Peers}
    {event : Event}
    (hprocess : ∀ behind fp peer, event = .processed behind fp →
      peers.findPeer fp.flowSource = some peer → I peer →
      Ends E (fun r => I r.1) (processNetflowV9 (.heap behind) limits fp.packet.length fp peer))
    (h : ∀ peer ∈ peers.peerList, I peer) :
    Ends E (fun peers' => ∀ peer ∈ peers'.peerList, I peer) (peers.step limits allowed event) := by
  cases event with
  | received flowSource =>
    refine (receivePacket_ends limits allowed peers flowSource).imp (fun e he => he ▸ hpointer) ?_
    intro peers' hpeers peer hpeer
    rcases hpeers peer hpeer with rfl | hold
    · exact hnew flowSource
    · exact h peer hold
  | processed behind fp =>
    rw [step, processPacket]
    cases hfind : peers.findPeer fp.flowSource with
    | none => exact h
    | some peer =>
      have hpeer : I peer := h peer (List.mem_of_find?_eq_some hfind)
      refine (hprocess behind fp peer rfl hfind hpeer).bind fun r hr p hp => ?_
      rcases mem_putPeer hp with rfl | hold
      · exact hr
      · exact h p hold

/-- So does a run. -/
theorem run_ends (hpointer : E .pointer) (hnew : ∀ addr, I { origin := addr })
    {events : List Event}
    (hprocess : ∀ pre behind fp post peers peer, events = pre ++ .processed behind fp :: post →
      run limits allowed pre = .ok peers → peers.findPeer fp.flowSource = some peer → I peer →
      Ends E (fun r => I r.1) (processNetflowV9 (.heap behind) limits fp.packet.length fp peer)) :
    Ends E (fun peers => ∀ peer ∈ peers.peerList, I peer) (run limits allowed events) := by
  -- what is known of the peers between two events includes that the run has come there
  have hrun : Ends E (fun peers => run limits allowed events = .ok peers ∧
      ∀ peer ∈ peers.peerList, I peer) (run limits allowed events) := by
    refine Ends.foldlM
      (I := fun pre peers => run limits allowed pre = .ok peers ∧ ∀ peer ∈ peers.peerList, I peer)
      ?_ ⟨rfl, fun _ h => absurd h List.not_mem_nil⟩
    rintro pre event post peers hevents ⟨hpre, hall⟩
    have hstep : Ends E (fun peers' => ∀ peer ∈ peers'.peerList, I peer)
        (peers.step limits allowed event) := by
      refine step_ends hpointer hnew (fun behind fp peer hevent => ?_) hall
      exact hprocess pre behind fp post peers peer (hevent ▸ hevents) hpre
    cases hnext : peers.step limits allowed event with
    | error e =>
      rw [hnext] at hstep
      exact hstep
    | ok peers' =>
      rw [hnext] at hstep
      refine ⟨?_, hstep⟩
      rw [run] at hpre
      rw [run, List.foldlM_append, hpre, ok_bind, List.foldlM_cons, hnext]
      rfl
  exact hrun.imp (fun _ => id) fun _ h => h.2

end Peers

/-! ## Templates without records -/

/-- A call of `process_netflow_v9` comes to the header of a template without records. -/
def ArrivesEmpty (mem : Memory) (limits : PeerLimits) (fp : FlowPacket) (peer : PeerState) : Prop :=
  ∃ base res length offset peer₁, Arrives mem limits fp peer base res ∧
    FlowsetAt mem fp base 0 length ∧ base + length.toNat ≤ fp.packet.length ∧
    ArrivesTemplate limits fp.sourceId (mem.flowset fp base length.toNat) length.toNat res.peer
      offset peer₁ ∧
    offset < length.toNat ∧ fetchNtohs (mem.flowset fp base length.toNat) (offset + 2) = .ok 0

/-- Every other template that is registered is accepted and has records. -/
theorem PacketRegisters.accepted {mem : Memory} {limits : PeerLimits} {fp : FlowPacket}
    {peer peer₁ peer₂ : PeerState} {recs : List PeerNf9Record} {totalLen : ℕ}
    (h : PacketRegisters mem limits fp peer peer₁ recs totalLen peer₂) :
    Accepted limits recs totalLen ∧ (recs = [] → ArrivesEmpty mem limits fp peer) := by
  obtain ⟨base, res, length, harrives, hat, hfit, offset, templateId, count, htemplate, hlt, hcount,
    hacc, hlen, -⟩ := h
  refine ⟨hacc, ?_⟩
  rintro rfl
  obtain rfl : count = 0 := UInt16.toNat_inj.mp hlen.symm
  exact ⟨base, res, length, offset, peer₁, harrives, hat, hfit, htemplate, hlt, hcount⟩

/-- The peer has no template without records. -/
def PeerState.NoneEmpty (peer : PeerState) : Prop :=
  ∀ sourceId templateId template, peer.findTemplate sourceId templateId = some template →
    ∃ recs, template.records = some recs ∧ 1 ≤ recs.length ∧ 1 ≤ template.totalLen

/-- **Stored templates are never empty.** In every run in which no call of `process_netflow_v9`
comes to the header of a template without records, every template that is found has a record and
describes at least one byte, and `process_netflow_v9_data` never divides by zero. -/
theorem Peers.run_noneEmpty {limits : PeerLimits} {allowed : Xaddr → Bool} {events : List Event}
    (h : ∀ pre behind fp post peers peer, events = pre ++ .processed behind fp :: post →
      Peers.run limits allowed pre = .ok peers → peers.findPeer fp.flowSource = some peer →
      ¬ ArrivesEmpty (.heap behind) limits fp peer) :
    Ends (· ≠ .divByZero) (fun peers => ∀ peer ∈ peers.peerList, peer.NoneEmpty)
      (Peers.run limits allowed events) := by
  let Q (recs : List PeerNf9Record) (totalLen : ℕ) : Prop :=
    Accepted limits recs totalLen ∧ recs ≠ []
  have hpos : ∀ recs totalLen, Q recs totalLen → 1 ≤ totalLen :=
    fun recs totalLen hq => hq.1.total_pos hq.2
  have hrun : Ends (· ≠ .divByZero) (fun peers => ∀ peer ∈ peers.peerList, peer.Stores Q)
      (Peers.run limits allowed events) := by
    refine Peers.run_ends (by decide) (fun addr src hsrc => absurd hsrc List.not_mem_nil) ?_
    intro pre behind fp post peers peer hevents hpre hfind hstores
    have hnone := h pre behind fp post peers peer hevents hpre hfind
    -- a template without records is registered only behind its header
    have hregister : ∀ peer₁ recs totalLen peer₂,
        PacketRegisters (.heap behind) limits fp peer peer₁ recs totalLen peer₂ →
        Q recs totalLen :=
      fun peer₁ recs totalLen peer₂ hreg => ⟨hreg.accepted.1, fun hnil =>
        hnone (hreg.accepted.2 hnil)⟩
    refine (processNetflowV9_ends_of_stores (fun _ _ hq => hq.1) hstores hregister
      fp.packet.length).imp (fun e he => ?_) fun _ => id
    rcases he with rfl | rfl | ⟨-, recs, hq⟩
    · decide
    · decide
    · exact absurd (hpos recs 0 hq) (by decide)
  refine hrun.imp (fun _ => id) fun peers hall peer hpeer sourceId templateId template hfind => ?_
  obtain ⟨recs, hrecs, hq⟩ := (hall peer hpeer).findTemplate hfind
  exact ⟨recs, hrecs, List.length_pos_of_ne_nil hq.2, hpos recs _ hq⟩

/-- An exporter. -/
def exporter : Xaddr := { af := afInet }

/-- A datagram with the flowsets given. -/
def v9Datagram (flowsets : List UInt8) : FlowPacket :=
  { flowSource := exporter, packet := [0, 9] ++ List.replicate 18 0 ++ flowsets }

/-- A template with one record, the protocol. -/
def protocolTemplate : FlowPacket := v9Datagram [0, 0, 0, 12, 1, 0, 0, 1, 0, 4, 0, 1]

/-- The loops come to one flowset and to one template header in it, which has records. -/
theorem not_arrivesEmpty_protocolTemplate (peer : PeerState) :
    ¬ ArrivesEmpty (.heap fun _ => 0) {} protocolTemplate peer := by
  rintro ⟨base, res, length, offset, peer₁, harrives, hat, -, htemplate, hlt, hcount⟩
  have honly : FlowsetAt (.heap fun _ => 0) protocolTemplate 20 0 12 := by
    constructor <;> decide +kernel
  obtain rfl := harrives.eq_of_only honly (by decide)
  obtain rfl : length = 12 := Except.ok.inj (hat.2.symm.trans honly.2)
  have hread : fetchNtohs (Memory.flowset (.heap fun _ => 0) protocolTemplate 20 12) 6 = .ok 1 := by
    decide +kernel
  rcases htemplate.cases_head with heq | ⟨t, hnext, hreach⟩
  · obtain rfl : offset = 4 := (congrArg Prod.fst heq).symm
    rw [show (12 : UInt16).toNat = 12 from rfl, hread] at hcount
    exact absurd (Except.ok.inj hcount) (by decide)
  · -- the header is followed by the end of the flowset
    obtain ⟨-, -, count, -, -, -, hcount', -, -, hoff, -⟩ :=
      templateStep_eq_inr (orFail_eq_inr.mp hnext)
    obtain rfl : count = 1 := Except.ok.inj (hcount'.symm.trans hread)
    have hle : 12 ≤ offset := by
      apply Reaches.invariant (I := fun s : ℕ × PeerState => 12 ≤ s.1) hreach hoff.ge
      intro t t' _ ht hnext
      obtain ⟨-, -, count, -, -, -, -, -, -, hoff, -⟩ :=
        templateStep_eq_inr (orFail_eq_inr.mp hnext)
      omega
    exact absurd hlt (Nat.not_lt.mpr hle)

/-- A run that stores a template. -/
theorem Peers.run_noneEmpty_protocolTemplate :
    Ends (· ≠ .divByZero) (fun peers => ∀ peer ∈ peers.peerList, peer.NoneEmpty)
      (Peers.run {} (fun _ => true)
        [.received exporter, .processed (fun _ => 0) protocolTemplate]) := by
  refine Peers.run_noneEmpty fun pre behind fp post peers peer hevents _ _ => ?_
  rcases pre with _ | ⟨first, _ | ⟨second, pre⟩⟩
  · cases hevents
  · cases hevents
    exact not_arrivesEmpty_protocolTemplate peer
  · cases pre <;> cases hevents

/-- A template without records is stored, and the next data flowset divides by zero. -/
theorem Peers.run_emptyTemplate :
    Peers.run {} (fun _ => true) [.received exporter,
        .processed (fun _ => 0) (v9Datagram [0, 0, 0, 8, 1, 0, 0, 0]),
        .processed (fun _ => 0) (v9Datagram [1, 0, 0, 8, 0, 0, 0, 0])] = .error .divByZero := by
  decide +kernel

/-! ## Decoding with the stored templates -/

/-- What the store of a peer promises to the decoder. -/
structure PeerState.Decodes (limits : PeerLimits) (peer : PeerState) : Prop where
  /-- Every stored template is filled in; its records pass `nf9_check_rec_len`, and `total_len` is
  their sum and at most `max_template_len`. -/
  accepted : peer.Stores (Accepted limits)
  /-- `nf9_flowset_to_store` does not return `-1`, and does not look behind the `total_len` bytes of
  the data record. -/
  toStore : ∀ fp hdr sourceId templateId template pkt,
    peer.findTemplate sourceId templateId = some template → template.totalLen ≤ pkt.length →
    ∃ records flow, template.records = some records ∧
      nf9FlowsetToStore fp peer hdr sourceId pkt template.totalLen template records =
        .ok (some flow) ∧
      nf9FlowsetToStore fp peer hdr sourceId (pkt.take template.totalLen) template.totalLen
        template records = .ok (some flow)
  /-- `nf9_rec_to_flow` stays inside the destination field. -/
  toFlow : ∀ sourceId templateId template, peer.findTemplate sourceId templateId = some template →
    ∃ records, template.records = some records ∧ ∀ r ∈ records, ∀ data : List UInt8,
      data.length = r.len → ∀ flow, ∃ flow', nf9RecToFlow r.type flow data = .ok flow'
  /-- `process_netflow_v9_data` decodes all of a flowset. -/
  data : ∀ fp hdr sourceId pkt len, len ≤ pkt.length →
    Ends (· = .divByZero) (fun res => 4 ≤ len → res.peer.ninvalid = peer.ninvalid)
      (processNetflowV9Data fp hdr sourceId pkt len peer)
  /-- When a template of the next datagram is rejected, the templates are found that had been found
  before it. -/
  rejected : ∀ mem fp base res length offset peer₁, Arrives mem limits fp peer base res →
    FlowsetAt mem fp base 0 length → base + length.toNat ≤ fp.packet.length →
    ArrivesTemplate limits fp.sourceId (mem.flowset fp base length.toNat) length.toNat res.peer
      offset peer₁ →
    RejectedAt limits (mem.flowset fp base length.toNat) length.toNat offset →
    ∃ fuel peer', (∀ extra, processNetflowV9 mem limits (fuel + extra) fp peer =
      .ok (peer', res.flows)) ∧
      ∀ sourceId templateId,
        peer'.findTemplate sourceId templateId = peer₁.findTemplate sourceId templateId

/-- A store of accepted templates keeps these promises. -/
theorem PeerState.Stores.decodes {limits : PeerLimits} {peer : PeerState}
    (h : peer.Stores (Accepted limits)) : peer.Decodes limits where
  accepted := h
  toStore := by
    intro fp hdr sourceId templateId template pkt hfind hlen
    obtain ⟨records, hrecords, hacc⟩ := h.findTemplate hfind
    obtain ⟨flow, hflow, htake⟩ := nf9FlowsetToStore_ok hacc fp peer hdr sourceId hlen
    exact ⟨records, flow, hrecords, hflow, htake⟩
  toFlow := by
    intro sourceId templateId template hfind
    obtain ⟨records, hrecords, hacc⟩ := h.findTemplate hfind
    refine ⟨records, hrecords, fun r hr data hdata flow => ?_⟩
    exact nf9RecToFlow_ok (hdata ▸ hacc.check r hr) flow
  data := fun fp hdr sourceId pkt len hlen =>
    (processNetflowV9Data_ok h fp hdr sourceId hlen).imp (fun _ he => he.1) fun _ => id
  rejected := by
    intro mem fp base res length offset peer₁ harrives hat hfit htemplate hrejected
    obtain ⟨fuel, hfuel⟩ := processNetflowV9_rejected harrives hat hfit htemplate hrejected
    exact ⟨fuel, peer₁.invalid, hfuel, fun _ _ => rfl⟩

/-- **Template store validity makes decoding safe.** In every run, the templates of every peer are
accepted ones and decoding with them is safe. Nothing but a loop that does not end, a NULL pointer
or a division by zero keeps a run from going on. -/
theorem Peers.run_decodes (limits : PeerLimits) (allowed : Xaddr → Bool) (events : List Event) :
    Ends (fun e => e = .noReturn ∨ e = .pointer ∨ e = .divByZero)
      (fun peers => ∀ peer ∈ peers.peerList, peer.Decodes limits)
      (Peers.run limits allowed events) := by
  have hrun : Ends (fun e => e = .noReturn ∨ e = .pointer ∨ e = .divByZero)
      (fun peers => ∀ peer ∈ peers.peerList, peer.Stores (Accepted limits))
      (Peers.run limits allowed events) := by
    refine Peers.run_ends (.inr (.inl rfl))
      (fun addr src hsrc => absurd hsrc List.not_mem_nil) ?_
    intro pre behind fp post peers peer _ _ _ hstores
    refine (processNetflowV9_ends_of_stores (fun _ _ => id) hstores
      (fun _ _ _ _ hreg => hreg.accepted.1) fp.packet.length).imp (fun e he => ?_) fun _ => id
    exact he.imp_right (Or.imp_right And.left)
  exact hrun.imp (fun _ => id) fun peers hall peer hpeer => (hall peer hpeer).decodes

end Flowd
