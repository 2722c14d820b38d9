import NetworkMonitoring.Flowd.NetFlow9
import NetworkMonitoring.Foundations.ErrorLoops

/-!
# flowd — what the NetFlow v9 decoder reads

One lemma for each loop of the decoder, about a packet that is known as a concatenation of pieces:
fields (`recordLoop_fields`), template records (`templateRecords_words`), data records
(`dataLoop_flatMap`) and flowsets (`flowsetLoop_flowset`).
-/

namespace Flowd

open Bytes

/-! ## Loads -/

theorem leNat_le16 (v : UInt16) : leNat (le16 v) = v.toNat :=
  leNat_leBytes (by simpa using v.toNat_lt)

theorem leNat_le32 (v : UInt32) : leNat (le32 v) = v.toNat :=
  leNat_leBytes (by simpa using v.toNat_lt)

/-- A 16-bit word in network byte order. -/
theorem fetchNtohs_append {pre rest : List UInt8} {v : UInt16} {offset : ℕ}
    (hoff : offset = pre.length) :
    fetchNtohs (pre ++ (le16 (htons v) ++ rest)) offset = .ok v := by
  have hword : htons (UInt16.ofNat (leNat (le16 (htons v)))) = v := by
    rw [leNat_le16, UInt16.ofNat_toNat, htons_htons]
  rw [fetchNtohs, fetch_append hoff (length_le16 _).symm]
  exact congrArg Except.ok hword

/-! ## Copies -/

/-- A field of full width is replaced. -/
theorem beCopy_full {w : ℕ} {data : List UInt8} (h : data.length = w) (v : ℕ) :
    beCopy w v data = .ok (leNat data) := by
  rw [beCopy, if_pos h.le, h, Nat.sub_self, List.take_zero, List.nil_append]

theorem beCopy8_singleton (v b : UInt8) : beCopy8 v [b] = .ok b := by
  have hlen : [b].length = 1 := rfl
  rw [beCopy8, beCopy_full hlen]
  simp [Except.map, leNat]

theorem beCopy16_le16 (v x : UInt16) : beCopy16 v (le16 x) = .ok x := by
  rw [beCopy16, beCopy_full (length_le16 x), leNat_le16]
  simp [Except.map]

theorem beCopy32_le32 (v x : UInt32) : beCopy32 v (le32 x) = .ok x := by
  rw [beCopy32, beCopy_full (length_le32 x), leNat_le32]
  simp [Except.map]

/-- The 64-bit word in network byte order with the value of a 32-bit one. -/
def widen (x : UInt32) : UInt64 := UInt64.ofNat (leNat ([0, 0, 0, 0] ++ le32 x))

/-- A 32-bit field in network byte order is copied into the low bytes of a 64-bit one. -/
theorem beCopy64_le32 (x : UInt32) : beCopy64 0 (le32 x) = .ok (widen x) := by
  have hzero : (leBytes 8 (0 : UInt64).toNat).take 4 = [0, 0, 0, 0] := by decide
  rw [beCopy64, beCopy, if_pos (by simp), length_le32, hzero]
  rfl

/-- Reading a widened field gives the value of the field. -/
theorem toNat_htonll_widen (x : UInt32) : (htonll (widen x)).toNat = (htonl x).toNat := by
  have hlen : ([0, 0, 0, 0] ++ le32 x).length = 8 := by simp
  have hlt := leNat_lt ([0, 0, 0, 0] ++ le32 x)
  have hword : (widen x).toNat = leNat ([0, 0, 0, 0] ++ le32 x) := by
    rw [widen, UInt64.toNat_ofNat', Nat.mod_eq_of_lt]
    rw [hlen] at hlt
    exact hlt.trans_eq (by norm_num)
  have hbytes : leBytes 8 (leNat ([0, 0, 0, 0] ++ le32 x)) = [0, 0, 0, 0] ++ le32 x := by
    rw [← hlen, leBytes_leNat]
  have hzeros : leNat [0, 0, 0, 0] = 0 := by decide
  have hreverse : ([0, 0, 0, 0] : List UInt8).reverse = [0, 0, 0, 0] := by decide
  rw [toNat_htonll, toNat_htonl, hword, swapBytes, hbytes, List.reverse_append, leNat_append,
    hreverse, hzeros, Nat.mul_zero, Nat.add_zero]
  rfl

/-! ## Records -/

/-- The loop over the records of a template copies the fields one by one. -/
theorem recordLoop_fields {fields : List (PeerNf9Record × List UInt8)}
    (h : ∀ x ∈ fields, x.2.length = x.1.len) (pre rest : List UInt8) (flow : StoreFlowComplete) :
    recordLoop (pre ++ (fields.flatMap Prod.snd ++ rest)) (fields.map Prod.fst) pre.length flow =
      fields.foldlM (fun flow x => nf9RecToFlow x.1.type flow x.2) flow := by
  induction fields generalizing pre flow with
  | nil => rfl
  | cons x xs ih =>
    have hx := h x List.mem_cons_self
    have hxs := fun y hy => h y (List.mem_cons_of_mem x hy)
    rw [List.map_cons, recordLoop, List.flatMap_cons, List.append_assoc,
      fetch_append rfl hx.symm, List.foldlM_cons]
    change nf9RecToFlow x.1.type flow x.2 >>= _ = _
    congr 1
    ext flow'
    have ih' := ih hxs (pre ++ x.2) flow'
    rwa [List.length_append, hx, List.append_assoc] at ih'

/-- The loop over the data records of a flowset. -/
theorem dataLoop_flatMap {α : Type} {fp : FlowPacket} {peer : PeerState} {hdr : Nf9Header}
    {sourceId : UInt32} {template : PeerNf9Template} {records : List PeerNf9Record}
    {memory : α → List UInt8} {store : α → StoreFlowComplete} {xs : List α}
    (hmemory : ∀ x ∈ xs, (memory x).length = template.totalLen)
    (hstore : ∀ x ∈ xs, ∀ rest, recordLoop (memory x ++ rest) records 0
      (nf9Start fp peer hdr sourceId) = .ok (store x)) (pre rest : List UInt8) :
    dataLoop fp peer hdr sourceId (pre ++ (xs.flatMap memory ++ rest)) template records xs.length
      pre.length = .ok (some (xs.map store)) := by
  induction xs generalizing pre with
  | nil => rfl
  | cons x xs ih =>
    have hx := hmemory x List.mem_cons_self
    have ih' := ih (fun y hy => hmemory y (List.mem_cons_of_mem x hy))
      (fun y hy => hstore y (List.mem_cons_of_mem x hy)) (pre ++ memory x)
    rw [List.length_append, hx, List.append_assoc] at ih'
    -- the first record, with the others behind it
    have hone : nf9FlowsetToStore fp peer hdr sourceId
        ((pre ++ ((x :: xs).flatMap memory ++ rest)).drop pre.length) template.totalLen template
        records = .ok (some (store x)) := by
      rw [nf9FlowsetToStore, if_neg (Nat.lt_irrefl _), List.drop_left, List.flatMap_cons,
        List.append_assoc, hstore x List.mem_cons_self]
      rfl
    rw [List.length_cons, dataLoop, hone]
    rw [List.flatMap_cons, List.append_assoc]
    simp only [ih', bind, Except.bind]
    rfl

/-! ## Templates -/

/-- The records of a template in a packet. -/
def templateWords (rs : List (UInt16 × UInt16)) : List UInt8 :=
  rs.flatMap fun (type, length) => le16 (htons type) ++ le16 (htons length)

/-- The records of a template as the collector keeps them. -/
def keptRecords (rs : List (UInt16 × UInt16)) : List PeerNf9Record :=
  rs.map fun (type, length) => ⟨type.toNat, length.toNat⟩

/-- The size of the data records a template describes. -/
def recordsLen (rs : List (UInt16 × UInt16)) : ℕ := (rs.map fun r => r.2.toNat).sum

@[simp]
theorem length_templateWords (rs : List (UInt16 × UInt16)) :
    (templateWords rs).length = rs.length * 4 :=
  length_flatMap_const (fun r => by simp) rs

/-- The loop over the records of a template that passes all checks. -/
theorem templateRecords_words (limits : PeerLimits) {rs : List (UInt16 × UInt16)} {len : ℕ}
    (hcheck : ∀ r ∈ rs, nf9CheckRecLen r.1.toNat r.2.toNat = true) (pre rest : List UInt8)
    (recs : List PeerNf9Record) (totalSize : ℕ)
    (hsize : totalSize + recordsLen rs ≤ limits.maxTemplateLen)
    (hlen : pre.length + rs.length * 4 ≤ len) :
    templateRecords limits (pre ++ (templateWords rs ++ rest)) len rs.length pre.length recs
        totalSize =
      .ok (some (recs ++ keptRecords rs, totalSize + recordsLen rs,
        pre.length + rs.length * 4)) := by
  induction rs generalizing pre recs totalSize with
  | nil =>
    simp [templateRecords, keptRecords, recordsLen]
  | cons r rs ih =>
    have hr := hcheck r List.mem_cons_self
    have hsum : recordsLen (r :: rs) = r.2.toNat + recordsLen rs := by simp [recordsLen]
    rw [hsum] at hsize
    rw [List.length_cons] at hlen
    have hsplit : pre ++ (templateWords (r :: rs) ++ rest) =
        pre ++ (le16 (htons r.1) ++ (le16 (htons r.2) ++ (templateWords rs ++ rest))) := by
      simp [templateWords, List.append_assoc]
    have htype : fetchNtohs (pre ++ (templateWords (r :: rs) ++ rest)) pre.length = .ok r.1 := by
      rw [hsplit, fetchNtohs_append rfl]
    have hlength : fetchNtohs (pre ++ (templateWords (r :: rs) ++ rest)) (pre.length + 2) =
        .ok r.2 := by
      rw [hsplit, ← List.append_assoc, fetchNtohs_append (by simp)]
    -- the other records start four bytes further on
    have ih' := ih (fun r' hr' => hcheck r' (List.mem_cons_of_mem r hr'))
      (pre ++ (le16 (htons r.1) ++ le16 (htons r.2))) (recs ++ [⟨r.1.toNat, r.2.toNat⟩])
      (totalSize + r.2.toNat) (by omega)
      (by simp only [List.length_append, length_le16]; omega)
    have hoff : (pre ++ (le16 (htons r.1) ++ le16 (htons r.2))).length = pre.length + 4 := by
      simp only [List.length_append, length_le16]
    have hpacket : (pre ++ (le16 (htons r.1) ++ le16 (htons r.2))) ++ (templateWords rs ++ rest) =
        pre ++ (templateWords (r :: rs) ++ rest) := by
      rw [hsplit]
      simp only [List.append_assoc]
    rw [hoff, hpacket] at ih'
    have hroom : ¬ pre.length ≥ len := by omega
    have hmax : ¬ totalSize + r.2.toNat > limits.maxTemplateLen := by omega
    rw [List.length_cons, templateRecords, if_neg hroom]
    simp only [htype, hlength, bind, Except.bind, if_neg hmax, hr, Bool.not_true,
      Bool.false_eq_true, if_false, ih']
    simp only [keptRecords, List.map_cons, List.append_assoc, List.singleton_append, hsum,
      Nat.add_assoc, Nat.succ_mul, Nat.add_comm 4]

/-- Make sure that there is a template with the id, and fill it in. -/
def PeerState.register (limits : PeerLimits) (sourceId : UInt32) (templateId : UInt16)
    (recs : List PeerNf9Record) (totalLen : ℕ) (peer : PeerState) : Except Fault PeerState := do
  let peer ← peer.ensureTemplate limits sourceId templateId
  return peer.fillTemplate sourceId templateId recs totalLen

/-- A flowset with one template registers it. -/
theorem processNetflowV9Template_words {limits : PeerLimits} {sourceId : UInt32}
    {templateId : UInt16} (count length : UInt16) {rs : List (UInt16 × UInt16)} (len : ℕ)
    {peer peer' : PeerState} (hcount : count.toNat = rs.length) (hlen : len = 8 + rs.length * 4)
    (hcheck : ∀ r ∈ rs, nf9CheckRecLen r.1.toNat r.2.toNat = true)
    (hsize : recordsLen rs ≤ limits.maxTemplateLen)
    (hregister : peer.register limits sourceId templateId (keptRecords rs) (recordsLen rs) =
      .ok peer') (rest : List UInt8) :
    processNetflowV9Template limits sourceId
        (le16 (htons 0) ++ (le16 (htons length) ++ (le16 (htons templateId) ++
          (le16 (htons count) ++ (templateWords rs ++ rest))))) len peer =
      .ok { peer := peer', proceed := true } := by
  set pkt := le16 (htons 0) ++ (le16 (htons length) ++ (le16 (htons templateId) ++
    (le16 (htons count) ++ (templateWords rs ++ rest)))) with hpkt
  have hid : fetchNtohs pkt 0 = .ok 0 := by
    have hfront : 0 = ([] : List UInt8).length := rfl
    have hsplit : pkt = [] ++ pkt := rfl
    rw [hsplit, hpkt, fetchNtohs_append hfront]
  have htemplate : fetchNtohs pkt 4 = .ok templateId := by
    have hsplit : pkt = (le16 (htons 0) ++ le16 (htons length)) ++ (le16 (htons templateId) ++
        (le16 (htons count) ++ (templateWords rs ++ rest))) := by
      rw [hpkt, List.append_assoc]
    rw [hsplit, fetchNtohs_append (by simp)]
  have hcountWord : fetchNtohs pkt (4 + 2) = .ok count := by
    have hsplit : pkt = (le16 (htons 0) ++ (le16 (htons length) ++ le16 (htons templateId))) ++
        (le16 (htons count) ++ (templateWords rs ++ rest)) := by
      rw [hpkt]
      simp only [List.append_assoc]
    rw [hsplit, fetchNtohs_append (by simp)]
  have hrecords : templateRecords limits pkt len rs.length 8 [] 0 =
      .ok (some (keptRecords rs, recordsLen rs, 8 + rs.length * 4)) := by
    have hsplit : pkt = (le16 (htons 0) ++ (le16 (htons length) ++ (le16 (htons templateId) ++
        le16 (htons count)))) ++ (templateWords rs ++ rest) := by
      rw [hpkt]
      simp only [List.append_assoc]
    have h := templateRecords_words limits hcheck (le16 (htons 0) ++ (le16 (htons length) ++
      (le16 (htons templateId) ++ le16 (htons count)))) rest [] 0 (by omega)
      (by simpa only [List.length_append, length_le16] using hlen.ge)
    rw [← hsplit] at h
    simpa using h
  unfold PeerState.register at hregister
  obtain ⟨peer₁, hfound, hfill⟩ := ErrorLoops.bind_eq_ok.mp hregister
  obtain rfl := Except.ok.inj hfill
  -- the second iteration finds the end of the flowset
  obtain ⟨fuel, hfuel⟩ : ∃ fuel, len = fuel + 1 + 1 := ⟨len - 2, by omega⟩
  have hstart : ¬ 4 ≥ len := by omega
  have hend : 8 + rs.length * 4 ≥ len := by omega
  have hshort : ¬ len < 4 := by omega
  rw [processNetflowV9Template, if_neg hshort]
  simp only [hid, ErrorLoops.ok_bind, ne_eq, not_true_eq_false, if_false]
  nth_rewrite 2 [hfuel]
  rw [templateLoop, if_neg hstart]
  simp only [htemplate, hcountWord, hcount, hrecords, ErrorLoops.ok_bind, hfound]
  rw [templateLoop, if_pos hend]

/-! ## Flowsets -/

/-- A data flowset with padding that is shorter than a record. -/
theorem processNetflowV9Data_flatMap {α : Type} {fp : FlowPacket} {peer : PeerState}
    {hdr : Nf9Header} {sourceId : UInt32} {template : PeerNf9Template}
    {records : List PeerNf9Record} {memory : α → List UInt8} {store : α → StoreFlowComplete}
    {xs : List α} {templateId length : UInt16} {padding : List UInt8} {len : ℕ}
    (hfound : peer.findTemplate sourceId templateId = some template)
    (hrecords : template.records = some records)
    (hmemory : ∀ x ∈ xs, (memory x).length = template.totalLen)
    (hstore : ∀ x ∈ xs, ∀ rest, recordLoop (memory x ++ rest) records 0
      (nf9Start fp peer hdr sourceId) = .ok (store x))
    (hlen : len = 4 + (xs.length * template.totalLen + padding.length))
    (hpadding : padding.length < template.totalLen) (hxs : 0 < xs.length)
    (hmax : xs.length ≤ 0x4000) (rest : List UInt8) :
    processNetflowV9Data fp hdr sourceId (le16 (htons templateId) ++ (le16 (htons length) ++
        ((xs.flatMap memory ++ padding) ++ rest))) len peer =
      .ok { peer := peer, flows := xs.map store, proceed := true } := by
  set pkt := le16 (htons templateId) ++ (le16 (htons length) ++
    ((xs.flatMap memory ++ padding) ++ rest)) with hpkt
  have hid : fetchNtohs pkt 0 = .ok templateId := by
    have hfront : 0 = ([] : List UInt8).length := rfl
    have hsplit : pkt = [] ++ pkt := rfl
    rw [hsplit, hpkt, fetchNtohs_append hfront]
  have hdata : dataLoop fp peer hdr sourceId pkt template records xs.length 4 =
      .ok (some (xs.map store)) := by
    have h := dataLoop_flatMap hmemory hstore (le16 (htons templateId) ++ le16 (htons length))
      (padding ++ rest)
    have hsplit : (le16 (htons templateId) ++ le16 (htons length)) ++
        (xs.flatMap memory ++ (padding ++ rest)) = pkt := by
      rw [hpkt]
      simp only [List.append_assoc]
    rwa [hsplit] at h
  have htotal : template.totalLen ≠ 0 := by omega
  -- the padding is shorter than a record and does not count as one
  have hnum : (len - 4) / template.totalLen = xs.length := by
    rw [hlen, Nat.add_sub_cancel_left, Nat.add_comm, Nat.add_mul_div_right _ _ (by omega),
      Nat.div_eq_of_lt hpadding, Nat.zero_add]
  have hshort : ¬ len < 4 := by omega
  have hstrange : ¬ (xs.length = 0 ∨ xs.length > 0x4000) := by omega
  rw [processNetflowV9Data, if_neg hshort]
  simp only [hid, bind, Except.bind, hfound, hrecords, if_neg htotal, hnum, if_neg hstrange, hdata]
  rfl

/-- What a pointer to a flowset of the packet can load starts with the flowset. -/
theorem Memory.flowset_append (mem : Memory) {fp : FlowPacket} {pre rest : List UInt8}
    (set : List UInt8) (hpacket : fp.packet = pre ++ (set ++ rest)) :
    ∃ rest', mem.flowset fp pre.length set.length = set ++ rest' := by
  cases mem with
  | checked =>
    refine ⟨[], ?_⟩
    rw [Memory.flowset, hpacket, List.drop_left, List.take_left, List.append_nil]
  | heap behind =>
    refine ⟨rest ++ List.ofFn behind, ?_⟩
    rw [Memory.flowset, hpacket, List.drop_left, List.append_assoc]

/-- What a pointer to the packet can load starts with the packet. -/
theorem Memory.packet_append (mem : Memory) (fp : FlowPacket) :
    ∃ rest, mem.packet fp = fp.packet ++ rest := by
  cases mem with
  | checked => exact ⟨[], (List.append_nil _).symm⟩
  | heap behind => exact ⟨List.ofFn behind, rfl⟩

/-- One iteration of the loop over the flowsets, at a flowset that is processed to its end. -/
theorem flowsetLoop_flowset (mem : Memory) {limits : PeerLimits} {fp : FlowPacket}
    {hdr : Nf9Header} {sourceId : UInt32} (fuel : ℕ) {pre body rest : List UInt8}
    {flowsetId length : UInt16} (res : FlowsetResult) {next : FlowsetResult}
    (hpacket : fp.packet =
      pre ++ (le16 (htons flowsetId) ++ (le16 (htons length) ++ (body ++ rest))))
    (hlength : length.toNat = 4 + body.length)
    (hflowset : ∀ rest, processFlowset limits fp hdr sourceId flowsetId
      (le16 (htons flowsetId) ++ (le16 (htons length) ++ (body ++ rest))) (4 + body.length)
      res.peer = .ok next) (hproceed : next.proceed = true) :
    flowsetLoop mem limits fp hdr sourceId (fuel + 1) pre.length res =
      if rest = [] then .ok { next with flows := res.flows ++ next.flows }
      else flowsetLoop mem limits fp hdr sourceId fuel (pre.length + (4 + body.length))
        { next with flows := res.flows ++ next.flows } := by
  obtain ⟨behind, hbehind⟩ := mem.packet_append fp
  have hload : mem.packet fp =
      pre ++ (le16 (htons flowsetId) ++ (le16 (htons length) ++ (body ++ (rest ++ behind)))) := by
    rw [hbehind, hpacket]
    simp only [List.append_assoc]
  have hid : fetchNtohs (mem.packet fp) pre.length = .ok flowsetId := by
    rw [hload, fetchNtohs_append rfl]
  have hlen : fetchNtohs (mem.packet fp) (pre.length + 2) = .ok length := by
    rw [hload, ← List.append_assoc, fetchNtohs_append (by simp)]
  -- the flowset is read from the packet with whatever stands in memory behind it
  obtain ⟨rest', hset⟩ := mem.flowset_append
    (le16 (htons flowsetId) ++ (le16 (htons length) ++ body))
    (by simpa only [List.append_assoc] using hpacket)
  have hsize : (le16 (htons flowsetId) ++ (le16 (htons length) ++ body)).length =
      4 + body.length := by
    simp only [List.length_append, length_le16]
    omega
  rw [hsize] at hset
  simp only [List.append_assoc] at hset
  have htotal : fp.packet.length = pre.length + (4 + body.length) + rest.length := by
    rw [hpacket]
    simp only [List.length_append, length_le16]
    omega
  have hinside : ¬ pre.length ≥ fp.packet.length := by omega
  have hfits : ¬ pre.length + (4 + body.length) > fp.packet.length := by omega
  rw [flowsetLoop]
  simp only [if_neg hinside, hid, hlen, hlength, bind, Except.bind, if_neg hfits, hset,
    hflowset rest', hproceed, Bool.not_true, Bool.false_eq_true, if_false]
  cases rest with
  | nil =>
    rw [if_pos rfl, if_pos (by rw [htotal]; rfl)]
    rfl
  | cons b bs =>
    rw [if_neg (List.cons_ne_nil b bs), if_neg (by rw [htotal, List.length_cons]; omega)]

end Flowd
