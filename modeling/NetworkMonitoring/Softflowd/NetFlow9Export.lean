import Mathlib.Algebra.Order.BigOperators.Group.List
import NetworkMonitoring.Foundations.ErrorLoops
import NetworkMonitoring.Softflowd.NetFlow9Packets

/-!
# softflowd — the datagrams of the NetFlow v9 exporter

What a call of `send_netflow_v9` sends when every `send` succeeds. Each iteration of the outer loop
takes at least one flow (`Filled.fill_spec`), so the call returns.

## Main results

* `sendLoopV9_spec`: the datagrams sent are well formed and carry the records of all flows, in
  order; the first one carries the templates when a refresh is due;
* `nf9Export_wellFormed`: the same for `send_netflow_v9` in every reachable static state, with what
  the bytes of each record say (`ReportsV9`).
-/

namespace Softflowd

open ByteBuffer Bytes V9Packet

/-! ## Well-formed datagrams -/

/-- What a collector can rely on. -/
structure Nf9Datagram.WellFormed (d : Nf9Datagram) : Prop where
  size : d.bytes.length ≤ nf9MaxPacketSize
  version : d.hdr.version = htons 9
  sourceId : d.hdr.sourceId = 0
  records : d.records ≠ []
  flows : (htons d.hdr.flows).toNat = d.records.length
  templates : d.templates = [] ∨ d.templates = [v4Template, v6Template]
  data : ∀ s ∈ d.data, s.WellFormed
  framed : ∀ s ∈ d.flowsets, s.length.toNat = s.bytes.length
  aligned : ∀ s ∈ d.flowsets, 4 ∣ s.length.toNat ∧ 4 ≤ s.length.toNat
  sum : 20 + (d.flowsets.map fun s => s.length.toNat).sum = d.bytes.length

/-- The header behind its first four bytes. -/
def Nf9Header.rest (h : Nf9Header) : List UInt8 :=
  le32 h.uptimeMs ++ (le32 h.timeSec ++ (le32 h.packageSequence ++ le32 h.sourceId))

/-- The bytes of a header begin with the version and the count. -/
theorem Nf9Header.bytes_eq (h : Nf9Header) :
    h.bytes = le16 h.version ++ (le16 h.flows ++ h.rest) := rfl

/-- The length of what is behind the count. -/
@[simp]
theorem Nf9Header.length_rest (h : Nf9Header) : h.rest.length = 16 := by
  simp [Nf9Header.rest]

/-- A template is its flowset. -/
theorem Nf9Template.flowset_bytes (t : Nf9Template) : t.flowset.bytes = t.bytes := by
  simp [Nf9Template.flowset, Nf9Flowset.bytes, Nf9Template.bytes]

/-- The bytes of a datagram, piece by piece. -/
theorem Nf9Datagram.bytes_eq (d : Nf9Datagram) :
    d.bytes = le16 d.hdr.version ++ (le16 d.hdr.flows ++
      ((d.hdr.rest ++ d.templates.flatMap Nf9Template.bytes) ++ dataBytes d.data)) := by
  have htemplates : (d.templates.map Nf9Template.flowset).flatMap Nf9Flowset.bytes =
      d.templates.flatMap Nf9Template.bytes := by
    rw [List.flatMap_map]
    exact List.flatMap_congr fun t _ => t.flowset_bytes
  have hdata : (d.data.map DataFlowset.flowset).flatMap Nf9Flowset.bytes = dataBytes d.data :=
    List.flatMap_map _ _ _
  rw [Nf9Datagram.bytes, Nf9Datagram.flowsets, List.flatMap_append, htemplates, hdata,
    Nf9Header.bytes_eq]
  simp only [List.append_assoc]

/-- The size of the template for IPv4. -/
theorem length_v4Template : v4Template.bytes.length = 52 := by decide

/-- The size of the template for IPv6. -/
theorem length_v6Template : v6Template.bytes.length = 52 := by decide

/-- A data flowset is not longer than its packet. -/
theorem DataFlowset.toNat_length {s : DataFlowset} (h : s.flowset.bytes.length < 65536) :
    s.flowset.length.toNat = s.flowset.bytes.length := by
  rw [length_dataFlowset_bytes] at h ⊢
  change (UInt16.ofNat _).toNat = _
  rw [UInt16.toNat_ofNat', Nat.mod_eq_of_lt h]

/-- Every record takes up some bytes. -/
theorem length_records_le {sets : List DataFlowset} (h : ∀ s ∈ sets, s.WellFormed) :
    (sets.flatMap DataFlowset.records).length ≤ (dataBytes sets).length := by
  induction sets with
  | nil => exact Nat.le_refl 0
  | cons s sets ih =>
    have ih' := ih fun s' hs' => h s' (List.mem_cons_of_mem s hs')
    have hlen := length_recordBytes (h s List.mem_cons_self).family
    have hpos : 1 ≤ s.family.recordLen := by cases s.family <;> decide
    have hone := Nat.le_mul_of_pos_right s.records.length hpos
    rw [List.flatMap_cons, List.length_append, dataBytes, List.flatMap_cons, List.length_append,
      length_dataFlowset_bytes, hlen]
    change _ ≤ _ + (dataBytes sets).length
    omega

/-- The flowsets of a datagram are templates and data. -/
theorem Nf9Datagram.mem_flowsets {d : Nf9Datagram} {s : Nf9Flowset}
    (htemplates : d.templates = [] ∨ d.templates = [v4Template, v6Template])
    (hs : s ∈ d.flowsets) :
    s = v4Template.flowset ∨ s = v6Template.flowset ∨ ∃ s' ∈ d.data, s = s'.flowset := by
  rcases List.mem_append.mp hs with hs | hs
  · obtain ⟨t, ht, rfl⟩ := List.mem_map.mp hs
    rcases htemplates with hnil | htwo
    · rw [hnil] at ht
      cases ht
    · rw [htwo] at ht
      rcases List.mem_pair.mp ht with rfl | rfl
      · exact .inl rfl
      · exact .inr (.inl rfl)
  · obtain ⟨s', hs', rfl⟩ := List.mem_map.mp hs
    exact .inr (.inr ⟨s', hs', rfl⟩)

/-- A datagram of the exporter is well formed. -/
theorem Nf9Datagram.wellFormed {d : Nf9Datagram} (hsize : d.bytes.length ≤ nf9MaxPacketSize)
    (hversion : d.hdr.version = htons 9) (hsource : d.hdr.sourceId = 0)
    (hrecords : d.records ≠ [])
    (hflows : d.hdr.flows = htons (UInt16.ofNat d.records.length))
    (htemplates : d.templates = [] ∨ d.templates = [v4Template, v6Template])
    (hdata : ∀ s ∈ d.data, s.WellFormed) : d.WellFormed := by
  have hmax : nf9MaxPacketSize = 512 := rfl
  have hbytes : d.bytes.length = 20 + (d.flowsets.map fun s => s.bytes.length).sum := by
    rw [Nf9Datagram.bytes, List.length_append, Nf9Header.length_bytes, List.length_flatMap]
  -- no length is cut to 16 bits, since the whole packet has at most 512 bytes
  have hone : ∀ s ∈ d.flowsets, s.bytes.length < 65536 := by
    intro s hs
    have := List.le_sum_of_mem (List.mem_map_of_mem (f := fun s => s.bytes.length) hs)
    omega
  have hframed : ∀ s ∈ d.flowsets, s.length.toNat = s.bytes.length := by
    intro s hs
    have hlt := hone s hs
    rcases Nf9Datagram.mem_flowsets htemplates hs with rfl | rfl | ⟨s', -, rfl⟩
    · decide
    · decide
    · exact s'.toNat_length hlt
  have haligned : ∀ s ∈ d.flowsets, 4 ∣ s.bytes.length ∧ 4 ≤ s.bytes.length := by
    intro s hs
    rcases Nf9Datagram.mem_flowsets htemplates hs with rfl | rfl | ⟨s', hs', rfl⟩
    · decide
    · decide
    · rw [length_dataFlowset_bytes]
      exact ⟨(hdata s' hs').aligned, Nat.le_add_right _ _⟩
  refine ⟨hsize, hversion, hsource, hrecords, ?_, htemplates, hdata, hframed, ?_, ?_⟩
  · have hfew : d.records.length ≤ d.bytes.length := by
      apply (length_records_le hdata).trans
      rw [d.bytes_eq]
      simp only [List.length_append]
      omega
    rw [hflows, htons_htons, UInt16.toNat_ofNat', Nat.mod_eq_of_lt (by omega)]
  · intro s hs
    rw [hframed s hs]
    exact haligned s hs
  · rw [hbytes, List.map_congr_left hframed]

/-! ## What a record says -/

/-- The bytes of an address of the family of the flow. -/
def Flow.addrBytes (f : Flow) (d : Dir) : List UInt8 :=
  if f.af = afInet then List.ofFn (f.addr d).v4 else List.ofFn (f.addr d)

/-- The `n` bytes from offset `off` on. -/
def fieldBytes (bs : List UInt8) (off n : ℕ) : List UInt8 := (bs.drop off).take n

/-- The number in network byte order in these bytes. -/
def fieldNat (bs : List UInt8) (off n : ℕ) : ℕ := leNat (fieldBytes bs off n).reverse

/-- The bytes of a record about direction `d` of a flow, field by field; `w` is the length of an
address. -/
structure ReportsV9 (f : Flow) (boot : Timeval) (d : Dir) (w : ℕ) (bs : List UInt8) : Prop where
  length : bs.length = 2 * w + 23
  srcAddr : fieldBytes bs 0 w = f.addrBytes d
  dstAddr : fieldBytes bs w w = f.addrBytes d.other
  firstSwitched : fieldNat bs (2 * w) 4 = (timevalSubMs f.flowStart boot).toNat
  lastSwitched : fieldNat bs (2 * w + 4) 4 = (timevalSubMs f.flowLast boot).toNat
  octets : fieldNat bs (2 * w + 8) 4 = (f.octets d).toNat
  packets : fieldNat bs (2 * w + 12) 4 = (f.packets d).toNat
  srcPort : fieldBytes bs (2 * w + 16) 2 = le16 (f.port d)
  dstPort : fieldBytes bs (2 * w + 18) 2 = le16 (f.port d.other)
  protocol : fieldBytes bs (2 * w + 20) 1 = [f.protocol]
  tcpFlags : fieldBytes bs (2 * w + 21) 1 = [f.tcpFlags d]
  ipVersion : fieldBytes bs (2 * w + 22) 1 = [if f.af = afInet then 4 else 6]

/-- A field between two others. -/
theorem fieldBytes_append {a x c : List UInt8} {off n : ℕ} (hoff : off = a.length)
    (hn : n = x.length) : fieldBytes (a ++ (x ++ c)) off n = x := by
  subst hoff hn
  rw [fieldBytes, List.drop_left, List.take_left]

/-- A field behind the first part. -/
theorem fieldBytes_append_right {a x : List UInt8} {off n k : ℕ} (hoff : off = a.length + k) :
    fieldBytes (a ++ x) off n = fieldBytes x k n := by
  subst hoff
  rw [fieldBytes, fieldBytes, ← List.drop_drop, List.drop_left]

/-- A number in network order, read in network order. -/
theorem leNat_reverse_htonl (v : UInt32) : leNat (le32 (htonl v)).reverse = v.toNat := by
  have hlt : v.toNat < 256 ^ 4 := by simpa using v.toNat_lt
  rw [le32, toNat_htonl, leBytes_swapBytes, List.reverse_reverse, leNat_leBytes hlt]

/-- The addresses, and behind them the common part. -/
theorem Flow.memory_nf9Data (f : Flow) (boot : Timeval) (d : Dir) :
    (f.nf9Data boot d).memory =
      (f.addrBytes d ++ f.addrBytes d.other) ++ (f.nf9Common boot d).memory := by
  rw [Flow.nf9Data, Flow.addrBytes, Flow.addrBytes]
  split <;> simp only [Nf9Data.memory, List.append_assoc]

/-- The size of the addresses of a family. -/
theorem Flow.length_addrBytes (f : Flow) (d : Dir) :
    (f.addrBytes d).length = if f.af = afInet then 4 else 16 := by
  rw [Flow.addrBytes]
  split <;> exact List.length_ofFn

/-- The record of `nf_flow_to_flowset` says what the flow is. -/
theorem reportsV9_nf9Data (f : Flow) (boot : Timeval) (d : Dir) :
    ReportsV9 f boot d (if f.af = afInet then 4 else 16) (f.nf9Data boot d).memory := by
  have hsrc := f.length_addrBytes d
  have hdst := f.length_addrBytes d.other
  set w := if f.af = afInet then 4 else 16
  have hboth : (f.addrBytes d ++ f.addrBytes d.other).length = 2 * w := by
    rw [List.length_append]
    omega
  -- behind the two addresses comes the part that both families have
  have hcommon (k n : ℕ) : fieldBytes (f.nf9Data boot d).memory (2 * w + k) n =
      fieldBytes (f.nf9Common boot d).memory k n := by
    rw [f.memory_nf9Data, fieldBytes_append_right (by rw [hboth])]
  have hnat (k n : ℕ) : fieldNat (f.nf9Data boot d).memory (2 * w + k) n =
      leNat (fieldBytes (f.nf9Common boot d).memory k n).reverse := by
    rw [fieldNat, hcommon]
  constructor
  · rw [f.memory_nf9Data, List.length_append, hboth, Nf9DataCommon.length_memory]
  · rw [f.memory_nf9Data, List.append_assoc]
    exact fieldBytes_append (a := []) rfl hsrc.symm
  · rw [f.memory_nf9Data, List.append_assoc]
    exact fieldBytes_append hsrc.symm hdst.symm
  · exact (hnat 0 4).trans (leNat_reverse_htonl _)
  · exact (hnat 4 4).trans (leNat_reverse_htonl _)
  · exact (hnat 8 4).trans (leNat_reverse_htonl _)
  · exact (hnat 12 4).trans (leNat_reverse_htonl _)
  · exact hcommon 16 2
  · exact hcommon 18 2
  · exact hcommon 20 1
  · exact hcommon 21 1
  · exact hcommon 22 1

/-- The directions that are to be reported: those with octets, flow by flow. -/
def directionsV9 (flows : List Flow) : List (Flow × Dir) :=
  flows.flatMap fun f => ([0, 1].filter fun d => f.octets d > 0).map fun d => (f, d)

/-- Records that report the directions of some flows, in order. -/
def ReportV9s (flows : List Flow) (boot : Timeval) (rs : List Nf9Data) : Prop :=
  List.Forall₂ (fun x r => ReportsV9 x.1 boot x.2 (if x.1.af = afInet then 4 else 16) r.memory)
    (directionsV9 flows) rs

/-- The records of flows report these flows. -/
theorem reportV9s_nf9Records (flows : List Flow) (boot : Timeval) :
    ReportV9s flows boot (flows.flatMap (·.nf9Records boot)) := by
  have hmap : flows.flatMap (·.nf9Records boot) =
      (directionsV9 flows).map fun x => x.1.nf9Data boot x.2 := by
    rw [directionsV9, List.map_flatMap]
    refine List.flatMap_congr fun f _ => ?_
    rw [List.map_map]
    rfl
  rw [ReportV9s, hmap, List.forall₂_map_right_iff, List.forall₂_same]
  exact fun x _ => reportsV9_nf9Data x.1 boot x.2

/-! ## One packet -/

/-- The templates of the packet that is started in the static state `ts`. -/
theorem Nf9Statics.refresh_templates {ts : Nf9Statics} (h : Initialised ts) :
    ts.refresh.1 = (if ts.pktsUntilTemplate ≤ 0 then
      [Softflowd.v4Template, Softflowd.v6Template] else []) ∧
      Initialised ts.refresh.2 := by
  unfold Nf9Statics.refresh
  split
  · exact ⟨by rw [h.1, h.2], h⟩
  · exact ⟨rfl, h⟩

/-- A new packet holds the header and the templates. -/
theorem V9Send.filled_start (env : V9Env) (exported : UInt64) {st : V9Send}
    (h : Initialised st.ex.nf9) :
    ∃ tail, 114 ≤ tail.length ∧ Filled (st.start env exported) 0
      ((env.header st.numPackets (exported + UInt64.ofNat st.j)).rest ++
        st.ex.nf9.refresh.1.flatMap Nf9Template.bytes) [] tail := by
  set hdr := env.header st.numPackets (exported + UInt64.ofNat st.j) with hhdr
  set templates := st.ex.nf9.refresh.1.flatMap Nf9Template.bytes with htemplates
  have hlen : templates.length ≤ 104 ∧ 4 ∣ templates.length := by
    rw [htemplates, (Nf9Statics.refresh_templates h).1]
    split <;> decide
  have hmax : nf9MaxPacketSize = 512 := rfl
  -- the header and the templates are written over a packet of zeros
  have hpacket : (st.start env exported).packet =
      hdr.bytes ++ (templates ++ List.replicate (492 - templates.length) 0) := by
    change poke (poke (List.replicate nf9MaxPacketSize 0) 0 hdr.bytes) 20 templates = _
    have hzeros : List.replicate nf9MaxPacketSize (0 : UInt8) =
        [] ++ List.replicate nf9MaxPacketSize 0 := rfl
    have hfront : 0 = ([] : List UInt8).length := rfl
    rw [hzeros, poke_append_left hfront, List.nil_append, poke_append_left hdr.length_bytes.symm]
    simp only [List.drop_replicate, Nf9Header.length_bytes, hmax]
  refine ⟨List.replicate (492 - templates.length) 0, ?_, ?_, ?_, ?_, ?_⟩
  · rw [List.length_replicate]
    omega
  · rw [hpacket, hdr.bytes_eq, layout]
    simp only [List.append_assoc, List.nil_append]
    rfl
  · change 20 + templates.length = _
    rw [List.length_append, Nf9Header.length_rest, List.length_nil]
    omega
  · change 20 + templates.length + _ = _
    rw [List.length_replicate]
    omega
  · rw [List.length_append, Nf9Header.length_rest]
    omega

/-- One iteration of the outer loop fills a well-formed datagram with the records of at least one
flow. -/
theorem V9Send.fill_start (env : V9Env) (exported : UInt64) {st : V9Send}
    (h : Initialised st.ex.nf9) {f : Flow} {fs : List Flow} (hf : f.Exportable)
    (hfs : ∀ g ∈ fs, g.Exportable) :
    ∃ (d : Nf9Datagram) (taken rest : List Flow) (out : V9Packet), d.WellFormed ∧
      d.templates = st.ex.nf9.refresh.1 ∧
      fill st.ex.nf9.refresh.2 env.boot (f :: fs) (st.start env exported) = (out, rest) ∧
      out.finish.packet.take out.finish.offset = d.bytes ∧ fs = taken ++ rest ∧
      d.records = (f :: taken).flatMap (·.nf9Records env.boot) := by
  obtain ⟨tail, hroom, hfilled⟩ := V9Send.filled_start env exported h
  have hts := Nf9Statics.refresh_templates h
  obtain ⟨taken, htaken, sets, tail', hout, hwf, hrecords⟩ :=
    hfilled.fill_spec env.boot hts.2 rfl hroom hf hfs
  set hdr := env.header st.numPackets (exported + UInt64.ofNat st.j) with hhdr
  rw [Nat.zero_add] at hout
  rw [List.nil_append] at hrecords
  -- the number of flows goes into the header when the packet is finished
  let d : Nf9Datagram :=
    { hdr := { hdr with flows := htons (UInt16.ofNat (sets.flatMap DataFlowset.records).length) }
      templates := st.ex.nf9.refresh.1
      data := sets }
  have hbytes := hout.finish
  have hd : (fill st.ex.nf9.refresh.2 env.boot (f :: fs) (st.start env exported)).1.finish.packet.take
      (fill st.ex.nf9.refresh.2 env.boot (f :: fs) (st.start env exported)).1.finish.offset =
        d.bytes := by
    rw [hbytes, d.bytes_eq, ← hrecords]
    rfl
  have hsize : d.bytes.length ≤ nf9MaxPacketSize := by
    rw [← hd, List.length_take]
    have hsum := hout.size
    have hoffset : ∀ p : V9Packet, p.finish.offset = p.finishHeader.offset := fun p => rfl
    rw [hoffset]
    omega
  have hne : d.records ≠ [] := by
    change sets.flatMap DataFlowset.records ≠ []
    rw [hrecords, List.flatMap_cons]
    exact List.append_ne_nil_of_left_ne_nil
      (List.length_pos_iff.mp (hf.length_nf9Records env.boot).1) _
  refine ⟨d, taken, _, _, Nf9Datagram.wellFormed hsize rfl rfl hne rfl ?_ hwf, rfl, rfl, hd, htaken,
    hrecords⟩
  change st.ex.nf9.refresh.1 = [] ∨ st.ex.nf9.refresh.1 = [v4Template, v6Template]
  rw [hts.1]
  split
  · exact .inr rfl
  · exact .inl rfl

/-! ## All packets -/

/-- What the outer loop has sent: well-formed datagrams with the records of the flows, the first
one with the templates when a refresh was due. -/
structure SentV9 (env : V9Env) (flows : List Flow) (ts : Nf9Statics) (ds : List Nf9Datagram) :
    Prop where
  wellFormed : ∀ d ∈ ds, d.WellFormed
  records : ds.flatMap Nf9Datagram.records = flows.flatMap (·.nf9Records env.boot)
  templates : ts.pktsUntilTemplate ≤ 0 →
    ∀ d ∈ ds.head?, d.templates = [Softflowd.v4Template, Softflowd.v6Template]

/-- The outer loop returns, and sends the records of all flows. -/
theorem sendLoopV9_spec (env : V9Env) (exported : UInt64) {fuel : ℕ} {flows : List Flow}
    (st : V9Send) (hts : Initialised st.ex.nf9) (hsend : ∀ k, st.ex.net.sendFails k = false)
    (hflows : ∀ f ∈ flows, f.Exportable) (hfuel : flows.length ≤ fuel) :
    ∃ st' ds, sendLoopV9 env exported fuel flows st = .ok (.ok st') ∧
      st'.ex.net.sent = st.ex.net.sent ++ ds.map Nf9Datagram.bytes ∧
      st'.numPackets = st.numPackets + ds.length ∧ SentV9 env flows st.ex.nf9 ds := by
  induction fuel generalizing flows st with
  | zero =>
    obtain rfl := List.length_eq_zero_iff.mp (Nat.le_zero.mp hfuel)
    exact ⟨st, [], rfl, by simp, rfl, ⟨List.forall_mem_nil _, rfl, by simp⟩⟩
  | succ fuel ih =>
    cases flows with
    | nil => exact ⟨st, [], rfl, by simp, rfl, ⟨List.forall_mem_nil _, rfl, by simp⟩⟩
    | cons f fs =>
      have hf : f.Exportable := hflows f List.mem_cons_self
      have hfs : ∀ g ∈ fs, g.Exportable := fun g hg => hflows g (List.mem_cons_of_mem f hg)
      obtain ⟨d, taken, rest, out, hwf, htemplates, hfill, hbytes, hrest, hrecords⟩ :=
        V9Send.fill_start env exported hts hf hfs
      have hrefresh := Nf9Statics.refresh_templates hts
      have hnet : st.ex.net.send d.bytes = .ok { st.ex.net with
          sent := st.ex.net.sent ++ [d.bytes], attempts := st.ex.net.attempts + 1 } := by
        rw [Net.send, if_neg]
        rw [hsend]
        exact Bool.false_ne_true
      rw [sendLoopV9]
      simp only [hfill, hbytes, hnet]
      -- the rest of the flows is shorter, since at least one has been taken
      have hshorter : rest.length ≤ fuel := by
        rw [hrest, List.length_cons, List.length_append] at hfuel
        omega
      have hleft : ∀ g ∈ rest, g.Exportable := fun g hg =>
        hfs g (hrest ▸ List.mem_append_right taken hg)
      let st₁ : V9Send :=
        { numPackets := st.numPackets + 1
          j := st.j + ((f :: fs).length - rest.length)
          lastValid := out.finish.lastValid
          ex := { net := { st.ex.net with
                    sent := st.ex.net.sent ++ [d.bytes], attempts := st.ex.net.attempts + 1 }
                  nf9 := { st.ex.nf9.refresh.2 with
                    pktsUntilTemplate := st.ex.nf9.refresh.2.pktsUntilTemplate - 1 } } }
      obtain ⟨st', ds, hloop, hsent, hcount, hspec⟩ :=
        ih st₁ hrefresh.2 hsend hleft hshorter
      refine ⟨st', d :: ds, hloop, ?_, ?_, ?_, ?_, ?_⟩
      · rw [hsent]
        simp [st₁]
      · rw [hcount, List.length_cons]
        change st.numPackets + 1 + ds.length = _
        omega
      · exact List.forall_mem_cons.mpr ⟨hwf, hspec.wellFormed⟩
      · rw [List.flatMap_cons, hrecords, hspec.records, ← List.flatMap_append, List.cons_append,
          ← hrest]
      · intro hdue e he
        obtain rfl : d = e := by simpa using he
        rw [htemplates, hrefresh.1, if_pos hdue]

/-! ## Reachable static states -/

/-- The static states a run of the exporter can be in between two calls. -/
inductive Nf9Statics.Reachable : Nf9Statics → Prop where
  | initial : Reachable {}
  | send {ex ex' : Exporter} {fuel : ℕ} {now : Timeval} {time : ℕ → ℤ} {flows : List Flow}
      {exported exported' : UInt64} {boot : Timeval} {inOut r : ℤ} : Reachable ex.nf9 →
      sendNetflowV9 fuel now time flows exported boot inOut ex = .ok (r, exported', ex') →
      Reachable ex'.nf9
  | resend {ts : Nf9Statics} : Reachable ts → Reachable ts.resendTemplate

/-- The templates are in place, and the packet counter does not run below zero. -/
def Nf9Statics.Ready (ts : Nf9Statics) : Prop := 0 ≤ ts.pktsUntilTemplate ∧ Initialised ts

/-- A template that has been sent lasts for some packets. -/
theorem Nf9Statics.Ready.refresh {ts : Nf9Statics} (h : ts.Ready) :
    0 < ts.refresh.2.pktsUntilTemplate ∧ Initialised ts.refresh.2 := by
  refine ⟨?_, (refresh_templates h.2).2⟩
  unfold Nf9Statics.refresh
  split
  · have hinterval : 0 < nf9DefaultTemplateInterval := by decide
    exact hinterval
  · rename_i hpos
    exact Int.not_le.mp hpos

/-- The outer loop keeps the static state ready, also when a `send` fails. -/
theorem sendLoopV9_ready {env : V9Env} {exported : UInt64} {fuel : ℕ} {flows : List Flow}
    {st st' : V9Send} {res : Except V9Send V9Send}
    (h : sendLoopV9 env exported fuel flows st = .ok res) (hst : st.ex.nf9.Ready)
    (hres : res = .ok st' ∨ res = .error st') : st'.ex.nf9.Ready := by
  induction fuel generalizing flows st with
  | zero =>
    cases flows with
    | nil =>
      obtain rfl : .ok st = res := by simpa [sendLoopV9] using h
      obtain rfl : st = st' := by simpa using hres
      exact hst
    | cons f fs => cases h
  | succ fuel ih =>
    cases flows with
    | nil =>
      obtain rfl : .ok st = res := by simpa [sendLoopV9] using h
      obtain rfl : st = st' := by simpa using hres
      exact hst
    | cons f fs =>
      -- the refresh comes before the send, so its result does not matter
      have hrefresh := hst.refresh
      rw [sendLoopV9] at h
      simp only at h
      split at h
      · obtain rfl := Except.ok.inj h
        obtain rfl := by simpa using hres
        exact ⟨hrefresh.1.le, hrefresh.2⟩
      · exact ih h ⟨Int.sub_nonneg_of_le (Int.add_one_le_of_lt hrefresh.1), hrefresh.2⟩

/-- The templates are ready behind the first call. -/
theorem Nf9Statics.init_ready {ts : Nf9Statics} (h : ts.pktsUntilTemplate = -1 ∨ ts.Ready) :
    ts.init.Ready := by
  unfold Nf9Statics.init
  split
  · exact ⟨Int.le_refl 0, rfl, rfl⟩
  · rename_i hne
    exact h.resolve_left hne

/-- Every static state is the initial one or ready. -/
theorem Nf9Statics.Reachable.ready {ts : Nf9Statics} (h : ts.Reachable) :
    ts.pktsUntilTemplate = -1 ∨ ts.Ready := by
  induction h with
  | initial => exact .inl rfl
  | send _ hcall ih =>
    obtain ⟨res, hloop, hres⟩ := ErrorLoops.bind_eq_ok.mp hcall
    right
    cases res with
    | error st =>
      obtain ⟨-, rfl⟩ := by simpa using hres
      exact sendLoopV9_ready hloop (init_ready ih) (.inr rfl)
    | ok st =>
      obtain ⟨-, -, rfl⟩ := by simpa using hres
      exact sendLoopV9_ready hloop (init_ready ih) (.inl rfl)
  | resend _ ih =>
    unfold Nf9Statics.resendTemplate
    split
    · rename_i ts _ hpos
      right
      rcases ih with hneg | hready
      · omega
      · exact ⟨Int.le_refl 0, hready.2⟩
    · exact ih

/-- **The NetFlow v9 exporter.** For IPv4 and IPv6 flows that all have octets in some direction,
and with all sends succeeding, a call of `send_netflow_v9` returns and sends well-formed datagrams.
Their records report the non-empty directions of the flows, in order: addresses, times, octets,
packets, ports, protocol and flags stand in the bytes of the record. -/
theorem nf9Export_wellFormed {ex : Exporter} (hex : ex.nf9.Reachable)
    (hsend : ∀ k, ex.net.sendFails k = false) {flows : List Flow}
    (hflows : ∀ f ∈ flows, f.Exportable) {fuel : ℕ} (hfuel : flows.length ≤ fuel) (now : Timeval)
    (time : ℕ → ℤ) (exported : UInt64) (boot : Timeval) (inOut : ℤ) :
    ∃ (r : ℤ) (exported' : UInt64) (ex' : Exporter) (ds : List Nf9Datagram),
      sendNetflowV9 fuel now time flows exported boot inOut ex = .ok (r, exported', ex') ∧
      ex'.net.sent = ex.net.sent ++ ds.map Nf9Datagram.bytes ∧ r = ds.length ∧
      (∀ d ∈ ds, d.WellFormed) ∧ ReportV9s flows boot (ds.flatMap Nf9Datagram.records) := by
  obtain ⟨st, ds, hloop, hsent, hcount, hspec⟩ := sendLoopV9_spec ⟨now, time, boot⟩ exported
    { ex := { ex with nf9 := ex.nf9.init } } (Nf9Statics.init_ready hex.ready).2 hsend
    hflows hfuel
  refine ⟨st.numPackets, exported + UInt64.ofNat st.j, st.ex, ds, ?_, hsent, ?_,
    hspec.wellFormed, ?_⟩
  · rw [sendNetflowV9, hloop]
    rfl
  · rw [hcount, Nat.zero_add]
  · rw [hspec.records]
    exact reportV9s_nf9Records flows boot

/-- An IPv4 flow with octets in both directions. -/
def sampleV4Flow : Flow where
  af := afInet
  protocol := ipprotoTcp
  octets := fun _ => 40
  packets := fun _ => 1

/-- An IPv6 flow with octets in one direction. -/
def sampleV6Flow : Flow where
  af := afInet6
  protocol := ipprotoUdp
  octets := ![0, 80]
  packets := ![0, 2]

/-- The first sample flow can be exported. -/
theorem sampleV4Flow_exportable : sampleV4Flow.Exportable := ⟨.inl rfl, .inl (by decide)⟩

/-- The second sample flow can be exported. -/
theorem sampleV6Flow_exportable : sampleV6Flow.Exportable := ⟨.inr rfl, .inr (by decide)⟩

/-- Two flows of different families, from the initial state on: the octets of both directions of the
first one, and those of the second direction of the other one. -/
theorem nf9Export_wellFormed_mixed :
    ∃ (r : ℤ) (exported' : UInt64) (ex' : Exporter) (ds : List Nf9Datagram) (r₁ r₂ r₃ : Nf9Data),
      sendNetflowV9 2 {} (fun _ => 0) [sampleV4Flow, sampleV6Flow] 0 {} 0 {} =
        .ok (r, exported', ex') ∧
      ex'.net.sent = ds.map Nf9Datagram.bytes ∧ r = ds.length ∧ (∀ d ∈ ds, d.WellFormed) ∧
      ds.flatMap Nf9Datagram.records = [r₁, r₂, r₃] ∧ fieldNat r₁.memory 16 4 = 40 ∧
      fieldNat r₂.memory 16 4 = 40 ∧ fieldNat r₃.memory 40 4 = 80 := by
  have hflows : ∀ f ∈ [sampleV4Flow, sampleV6Flow], f.Exportable := by
    intro f hf
    rcases List.mem_pair.mp hf with rfl | rfl
    · exact sampleV4Flow_exportable
    · exact sampleV6Flow_exportable
  have hex : ({} : Exporter).nf9.Reachable := .initial
  obtain ⟨r, exported', ex', ds, hcall, hsent, hr, hwf, hreports⟩ :=
    nf9Export_wellFormed hex (fun _ => rfl) hflows (by decide : _ ≤ 2) {} (fun _ => 0) 0 {} 0
  have hdirections : directionsV9 [sampleV4Flow, sampleV6Flow] =
      [(sampleV4Flow, 0), (sampleV4Flow, 1), (sampleV6Flow, 1)] := rfl
  rw [ReportV9s, hdirections] at hreports
  obtain ⟨r₁, _, h₁, hsecond, hr₁⟩ := List.forall₂_cons_left_iff.mp hreports
  obtain ⟨r₂, _, h₂, hthird, rfl⟩ := List.forall₂_cons_left_iff.mp hsecond
  obtain ⟨r₃, _, h₃, hend, rfl⟩ := List.forall₂_cons_left_iff.mp hthird
  obtain rfl := List.forall₂_nil_left_iff.mp hend
  exact ⟨r, exported', ex', ds, r₁, r₂, r₃, hcall, hsent, hr, hwf, hr₁, h₁.octets, h₂.octets,
    h₃.octets⟩

end Softflowd
