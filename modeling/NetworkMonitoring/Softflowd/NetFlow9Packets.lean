import NetworkMonitoring.Softflowd.NetFlow9

/-!
# softflowd — the packets of the NetFlow v9 exporter

What the inner loop of `send_netflow_v9` leaves in the packet buffer. `Flow.nf9Records` is the list
of records one flow contributes, and a `DataFlowset` the records of one family with their padding.
The invariant `Open` describes a buffer whose last flowset still takes records; one flow keeps it
(`Open.put`), closes the flowset and opens another one (`Open.finishHeader`, `Filled.openHeader`),
or ends the packet.

## Main results

* `Open.fill_spec`: the inner loop takes a first part of the flows and leaves their records, in
  order, in well-formed flowsets;
* `fill_spec`: the same for a new packet, which takes at least one flow.
-/

namespace Softflowd

open ByteBuffer Bytes InetText

/-! ## Flowsets and datagrams -/

/-- The family of a data record. -/
inductive Nf9Family where
  | v4
  | v6
  deriving DecidableEq, Repr

namespace Nf9Family

/-- The size of a record. -/
def recordLen : Nf9Family → ℕ
  | .v4 => 31
  | .v6 => 55

/-- The id of the template. -/
def templateId : Nf9Family → UInt16
  | .v4 => nf9V4TemplateId
  | .v6 => nf9V6TemplateId

/-- The address family of the flows. -/
def af : Nf9Family → ℤ
  | .v4 => afInet
  | .v6 => afInet6

end Nf9Family

/-- The family of a record. -/
def Nf9Data.family : Nf9Data → Nf9Family
  | .v4 .. => .v4
  | .v6 .. => .v6

/-- The size of what the records have in common. -/
@[simp]
theorem Nf9DataCommon.length_memory (c : Nf9DataCommon) : c.memory.length = 23 := by
  simp [Nf9DataCommon.memory]

/-- The size of a record. -/
@[simp]
theorem Nf9Data.length_memory (r : Nf9Data) : r.memory.length = r.family.recordLen := by
  cases r <;> simp [Nf9Data.memory, Nf9Data.family, Nf9Family.recordLen]

/-- The size of a header. -/
@[simp]
theorem Nf9Header.length_bytes (h : Nf9Header) : h.bytes.length = 20 := by
  simp [Nf9Header.bytes]

/-- The memory of a list of records. -/
def recordBytes (rs : List Nf9Data) : List UInt8 := rs.flatMap Nf9Data.memory

/-- The bytes of two lists of records. -/
@[simp]
theorem recordBytes_append (rs rs' : List Nf9Data) :
    recordBytes (rs ++ rs') = recordBytes rs ++ recordBytes rs' :=
  List.flatMap_append

/-- The records of some directions of a flow: one for each direction with any octets. -/
def Flow.recordsOf (f : Flow) (boot : Timeval) (ds : List Dir) : List Nf9Data :=
  (ds.filter fun d => f.octets d > 0).map (f.nf9Data boot)

/-- The records of a flow. -/
def Flow.nf9Records (f : Flow) (boot : Timeval) : List Nf9Data := f.recordsOf boot [0, 1]

/-- The family of an IPv4 or IPv6 flow. -/
def Flow.nf9Family (f : Flow) : Nf9Family := if f.af = afInet then .v4 else .v6

/-- An IPv4 or IPv6 flow with octets in at least one direction. -/
structure Flow.Exportable (f : Flow) : Prop where
  family : f.af = afInet ∨ f.af = afInet6
  octets : f.octets 0 > 0 ∨ f.octets 1 > 0

/-- A flowset: its header and what stands behind it. -/
structure Nf9Flowset where
  flowsetId : UInt16
  length : UInt16
  body : List UInt8

/-- The bytes of a flowset. -/
def Nf9Flowset.bytes (s : Nf9Flowset) : List UInt8 :=
  le16 (htons s.flowsetId) ++ (le16 (htons s.length) ++ s.body)

/-- The template as a flowset. -/
def Nf9Template.flowset (t : Nf9Template) : Nf9Flowset where
  flowsetId := htons t.flowsetId
  length := htons t.length
  body := le16 t.templateId ++ (le16 t.count ++
    t.records.flatMap fun (type, length) => le16 type ++ le16 length)

/-- A data flowset: records of one family, and padding. -/
structure DataFlowset where
  family : Nf9Family
  records : List Nf9Data
  padding : List UInt8

/-- The flowset of records of one family. -/
def DataFlowset.flowset (s : DataFlowset) : Nf9Flowset where
  flowsetId := s.family.templateId
  length := UInt16.ofNat (4 + ((recordBytes s.records).length + s.padding.length))
  body := recordBytes s.records ++ s.padding

/-- A data flowset is aligned, and its padding is shorter than a record. -/
structure DataFlowset.WellFormed (s : DataFlowset) : Prop where
  family : ∀ r ∈ s.records, r.family = s.family
  records : s.records ≠ []
  padding : s.padding.length < s.family.recordLen
  aligned : 4 ∣ 4 + ((recordBytes s.records).length + s.padding.length)

/-- A datagram: a header, templates and data flowsets. -/
structure Nf9Datagram where
  hdr : Nf9Header
  templates : List Nf9Template
  data : List DataFlowset

/-- The flowsets of a datagram. -/
def Nf9Datagram.flowsets (d : Nf9Datagram) : List Nf9Flowset :=
  d.templates.map Nf9Template.flowset ++ d.data.map DataFlowset.flowset

/-- The bytes of a datagram. -/
def Nf9Datagram.bytes (d : Nf9Datagram) : List UInt8 :=
  d.hdr.bytes ++ d.flowsets.flatMap Nf9Flowset.bytes

/-- The records of a datagram. -/
def Nf9Datagram.records (d : Nf9Datagram) : List Nf9Data := d.data.flatMap DataFlowset.records

/-- The bytes of data flowsets. -/
def dataBytes (sets : List DataFlowset) : List UInt8 :=
  sets.flatMap fun s => s.flowset.bytes

/-- The bytes of two lists of flowsets. -/
@[simp]
theorem dataBytes_append (sets sets' : List DataFlowset) :
    dataBytes (sets ++ sets') = dataBytes sets ++ dataBytes sets' :=
  List.flatMap_append

/-- The length of a flowset with its padding. -/
theorem length_dataFlowset_bytes (s : DataFlowset) :
    s.flowset.bytes.length = 4 + ((recordBytes s.records).length + s.padding.length) := by
  simp only [Nf9Flowset.bytes, DataFlowset.flowset, List.length_append, length_le16]
  omega

/-! ## The records of a flow -/

/-- The family of the records is that of the flow. -/
theorem Flow.Exportable.af_eq {f : Flow} (h : f.Exportable) : f.nf9Family.af = f.af := by
  unfold Flow.nf9Family
  rcases h.family with hf | hf
  · rw [if_pos hf, hf]
    rfl
  · rw [if_neg (by rw [hf]; decide), hf]
    rfl

/-- A record is of the family of its flow. -/
theorem Flow.family_nf9Data (f : Flow) (boot : Timeval) (d : Dir) :
    (f.nf9Data boot d).family = f.nf9Family := by
  unfold Flow.nf9Data Flow.nf9Family
  split <;> rfl

/-- So are all records of a flow. -/
theorem Flow.family_of_mem_nf9Records {f : Flow} {boot : Timeval} {r : Nf9Data}
    (h : r ∈ f.nf9Records boot) : r.family = f.nf9Family := by
  obtain ⟨d, -, rfl⟩ := List.mem_map.mp h
  exact f.family_nf9Data boot d

/-- There is a record for each direction with octets. -/
theorem Flow.nf9Records_eq (f : Flow) (boot : Timeval) :
    f.nf9Records boot = (if f.octets 0 > 0 then [f.nf9Data boot 0] else []) ++
      (if f.octets 1 > 0 then [f.nf9Data boot 1] else []) := by
  unfold Flow.nf9Records Flow.recordsOf
  by_cases h₀ : f.octets 0 > 0 <;> by_cases h₁ : f.octets 1 > 0 <;> simp [h₀, h₁]

/-- A flow with octets has one or two records. -/
theorem Flow.Exportable.length_nf9Records {f : Flow} (h : f.Exportable) (boot : Timeval) :
    0 < (f.nf9Records boot).length ∧ (f.nf9Records boot).length ≤ 2 := by
  rw [f.nf9Records_eq]
  rcases h.octets with h₀ | h₁
  · rw [if_pos h₀]
    split <;> simp
  · rw [if_pos h₁]
    split <;> simp

/-- Records of one family all have the same size. -/
theorem length_recordBytes {rs : List Nf9Data} {fam : Nf9Family} (h : ∀ r ∈ rs, r.family = fam) :
    (recordBytes rs).length = rs.length * fam.recordLen := by
  induction rs with
  | nil => simp [recordBytes]
  | cons r rs ih =>
    have hr : r.memory.length = fam.recordLen := by
      rw [r.length_memory, h r List.mem_cons_self]
    have ih' := ih fun r' hr' => h r' (List.mem_cons_of_mem r hr')
    rw [recordBytes, List.flatMap_cons, List.length_append, hr, List.length_cons, Nat.succ_mul,
      Nat.add_comm]
    exact congrArg (· + fam.recordLen) ih'

/-- `nf_flow_to_flowset` copies the records one by one into the free part of the buffer, and stops
at the first one there is no room for. -/
theorem foldlM_copyRecord (f : Flow) (boot : Timeval) (a : List UInt8) {b tail : List UInt8}
    {k len : ℕ} (hlen : len = b.length + tail.length) (ds : List Dir) :
    (recordBytes (f.recordsOf boot ds)).length ≤ tail.length ∧
      ds.foldlM (copyRecord f boot a.length len) ⟨a ++ (b ++ tail), b.length, k⟩ =
        .ok ⟨a ++ ((b ++ recordBytes (f.recordsOf boot ds)) ++
          tail.drop (recordBytes (f.recordsOf boot ds)).length),
          (b ++ recordBytes (f.recordsOf boot ds)).length, k + (f.recordsOf boot ds).length⟩ ∨
    tail.length < (recordBytes (f.recordsOf boot ds)).length ∧
      ∃ t, t.length = len ∧
        ds.foldlM (copyRecord f boot a.length len) ⟨a ++ (b ++ tail), b.length, k⟩ =
          .error (a ++ t) := by
  induction ds generalizing b tail k with
  | nil =>
    left
    simp only [Flow.recordsOf, List.filter_nil, List.map_nil, recordBytes, List.flatMap_nil,
      List.length_nil, List.append_nil, List.drop_zero, Nat.add_zero]
    exact ⟨Nat.zero_le _, rfl⟩
  | cons d ds ih =>
    rw [List.foldlM_cons]
    by_cases hd : f.octets d > 0
    · set data := (f.nf9Data boot d).memory with hdata
      have hrecords : recordBytes (f.recordsOf boot (d :: ds)) =
          data ++ recordBytes (f.recordsOf boot ds) := by
        simp [Flow.recordsOf, hd, recordBytes, hdata]
      have hcount : (f.recordsOf boot (d :: ds)).length = (f.recordsOf boot ds).length + 1 := by
        simp [Flow.recordsOf, hd]
      by_cases hfit : data.length ≤ tail.length
      · -- the record is copied, and the rest of the directions finds less room
        have hcopy : copyRecord f boot a.length len ⟨a ++ (b ++ tail), b.length, k⟩ d =
            .ok ⟨a ++ ((b ++ data) ++ tail.drop data.length), (b ++ data).length, k + 1⟩ := by
          have hroom : ¬ b.length + data.length > len := by omega
          simp only [copyRecord, if_pos hd, ← hdata, if_neg hroom]
          rw [← List.append_assoc a b tail, poke_append_left (by rw [List.length_append])]
          simp only [List.append_assoc, List.length_append]
        have hlen' : len = (b ++ data).length + (tail.drop data.length).length := by
          rw [List.length_append, List.length_drop]
          omega
        rw [hcopy, hrecords, hcount]
        rcases ih (k := k + 1) hlen' with
          ⟨hle, hok⟩ | ⟨hlt, t, ht, herr⟩
        · left
          rw [List.length_drop] at hle
          refine ⟨by rw [List.length_append]; omega, hok.trans ?_⟩
          simp only [List.append_assoc, List.length_append, List.drop_drop, Nat.add_assoc,
            Nat.add_comm 1]
        · right
          rw [List.length_drop] at hlt
          exact ⟨by rw [List.length_append]; omega, t, ht, herr⟩
      · right
        have hcopy : copyRecord f boot a.length len ⟨a ++ (b ++ tail), b.length, k⟩ d =
            .error (a ++ (b ++ tail)) := by
          have hroom : b.length + data.length > len := by omega
          simp only [copyRecord, if_pos hd, ← hdata, if_pos hroom]
        refine ⟨by rw [hrecords, List.length_append]; omega, b ++ tail, ?_, ?_⟩
        · rw [List.length_append, hlen]
        · rw [hcopy]
          rfl
    · -- a direction without octets has no record
      have hskip : f.recordsOf boot (d :: ds) = f.recordsOf boot ds := by
        simp [Flow.recordsOf, hd]
      have hcopy : copyRecord f boot a.length len ⟨a ++ (b ++ tail), b.length, k⟩ d =
          .ok ⟨a ++ (b ++ tail), b.length, k⟩ := by
        simp only [copyRecord, if_neg hd]
      rw [hcopy, hskip]
      exact ih hlen

/-- `nf_flow_to_flowset` on the free part of the buffer: all records of the flow, or `-1`. -/
theorem nfFlowToFlowset_cases {f : Flow} (hf : f.Exportable) (boot : Timeval) (a tail : List UInt8) :
    (recordBytes (f.nf9Records boot)).length ≤ tail.length ∧
      nfFlowToFlowset f (a ++ tail) a.length tail.length boot =
        (((f.nf9Records boot).length : ℤ), (recordBytes (f.nf9Records boot)).length,
          a ++ (recordBytes (f.nf9Records boot) ++
            tail.drop (recordBytes (f.nf9Records boot)).length)) ∨
    tail.length < (recordBytes (f.nf9Records boot)).length ∧
      ∃ t, t.length = tail.length ∧
        nfFlowToFlowset f (a ++ tail) a.length tail.length boot = (-1, 0, a ++ t) := by
  have hlen : tail.length = ([] : List UInt8).length + tail.length := (Nat.zero_add _).symm
  unfold nfFlowToFlowset
  rw [if_pos hf.family]
  rcases foldlM_copyRecord f boot a (k := 0) hlen [0, 1] with
    ⟨hle, hok⟩ | ⟨hlt, t, ht, herr⟩
  · left
    refine ⟨hle, ?_⟩
    simp only [List.nil_append, List.length_nil, Nat.zero_add] at hok
    rw [hok]
    rfl
  · right
    refine ⟨hlt, t, ht, ?_⟩
    simp only [List.nil_append, List.length_nil] at herr
    rw [herr]

/-! ## The packet buffer -/

/-- The buffer of a packet: the header counts `n` flows in host byte order, `mid` is the rest of
the header with the flowsets that are finished, `cur` the flowset that is not, and `tail` what is
left. -/
def layout (n : ℕ) (mid cur tail : List UInt8) : List UInt8 :=
  le16 (htons 9) ++ (le16 (UInt16.ofNat n) ++ (mid ++ (cur ++ tail)))

/-- A flowset whose length is still in host byte order. -/
def openBytes (fam : Nf9Family) (rs : List Nf9Data) : List UInt8 :=
  le16 (htons fam.templateId) ++ (le16 (UInt16.ofNat (4 + (recordBytes rs).length)) ++
    recordBytes rs)

/-- Where the length of the open flowset stands. -/
theorem layout_openBytes (n : ℕ) (mid : List UInt8) (fam : Nf9Family) (rs : List Nf9Data)
    (tail : List UInt8) :
    layout n mid (openBytes fam rs) tail =
      (le16 (htons 9) ++ (le16 (UInt16.ofNat n) ++ (mid ++ le16 (htons fam.templateId)))) ++
        (le16 (UInt16.ofNat (4 + (recordBytes rs).length)) ++ (recordBytes rs ++ tail)) := by
  simp only [layout, openBytes, List.append_assoc]

/-- The length of a flowset that is still being filled. -/
theorem length_openBytes (fam : Nf9Family) (rs : List Nf9Data) :
    (openBytes fam rs).length = 4 + (recordBytes rs).length := by
  simp only [openBytes, List.length_append, length_le16]
  omega

namespace V9Packet

/-- What is in the packet. -/
structure Filled (st : V9Packet) (n : ℕ) (mid cur tail : List UInt8) : Prop where
  packet_eq : st.packet = layout n mid cur tail
  offset_eq : st.offset = 4 + (mid.length + cur.length)
  size : st.offset + tail.length = nf9MaxPacketSize
  aligned : 4 ∣ mid.length

/-- The packet ends with an open flowset. -/
structure Open (st : V9Packet) (n : ℕ) (mid : List UInt8) (fam : Nf9Family) (rs : List Nf9Data)
    (tail : List UInt8) : Prop extends Filled st n mid (openBytes fam rs) tail where
  dh_eq : st.dh = some (4 + mid.length)
  lastAf_eq : st.lastAf = fam.af
  family : ∀ r ∈ rs, r.family = fam

/-- The number of bytes `finishHeader` pads. -/
def padding (st : V9Packet) : ℕ := if st.offset % 4 ≠ 0 then 4 - st.offset % 4 else 0

/-- There are at most three bytes of padding. -/
theorem padding_lt (st : V9Packet) : st.padding < 4 := by
  unfold padding
  split <;> omega

/-- The padding makes the length a multiple of four. -/
theorem dvd_add_padding (st : V9Packet) : 4 ∣ st.offset + st.padding := by
  unfold padding
  split <;> omega

variable {st : V9Packet} {n : ℕ} {mid tail : List UInt8} {fam : Nf9Family} {rs : List Nf9Data}

/-- Finishing an open flowset leaves it in network byte order; the padding is whatever was in the
buffer. -/
theorem Open.finishHeader (h : Open st n mid fam rs tail) :
    Filled st.finishHeader n
      (mid ++ (DataFlowset.mk fam rs (tail.take st.padding)).flowset.bytes) []
      (tail.drop st.padding) := by
  have hoff := h.offset_eq
  have hsize := h.size
  have haligned := h.aligned
  have hdvd := st.dvd_add_padding
  rw [length_openBytes] at hoff
  have hmax : nf9MaxPacketSize = 512 := rfl
  have hpad : st.padding ≤ tail.length := by
    have := st.padding_lt
    omega
  have htake : (tail.take st.padding).length = st.padding := by
    rw [List.length_take]
    omega
  have hbytes : (DataFlowset.mk fam rs (tail.take st.padding)).flowset.bytes.length =
      4 + ((recordBytes rs).length + st.padding) :=
    (length_dataFlowset_bytes _).trans (congrArg (4 + ((recordBytes rs).length + ·)) htake)
  set pre := le16 (htons 9) ++ (le16 (UInt16.ofNat n) ++ (mid ++ le16 (htons fam.templateId)))
    with hpre
  have hprelen : 4 + mid.length + 2 = pre.length := by
    rw [hpre]
    simp only [List.length_append, length_le16]
    omega
  have hfinish : st.finishHeader = { st with
      packet := poke st.packet (4 + mid.length + 2)
        (le16 (htons (peek16 st.packet (4 + mid.length + 2) + UInt16.ofNat st.padding)))
      offset := st.offset + st.padding } := by
    unfold V9Packet.finishHeader
    rw [h.dh_eq]
    rfl
  -- the length field of the flowset still counts the header and the records
  have hpeek : peek16 st.packet (4 + mid.length + 2) =
      UInt16.ofNat (4 + (recordBytes rs).length) := by
    rw [h.packet_eq, layout_openBytes, ← hpre, peek16_append hprelen]
  rw [hfinish, hpeek, ← UInt16.ofNat_add]
  refine ⟨?_, ?_, ?_, ?_⟩
  · change poke st.packet _ _ = _
    rw [h.packet_eq, layout_openBytes, ← hpre, poke_append hprelen (by simp)]
    have htail : tail = tail.take st.padding ++ tail.drop st.padding :=
      (List.take_append_drop _ _).symm
    nth_rewrite 1 [htail]
    simp only [hpre, layout, Nf9Flowset.bytes, DataFlowset.flowset, htake, List.append_assoc,
      List.nil_append, Nat.add_assoc]
  · change st.offset + st.padding = _
    rw [List.length_append, hbytes, List.length_nil]
    omega
  · change st.offset + st.padding + _ = _
    rw [List.length_drop]
    omega
  · rw [List.length_append, hbytes]
    omega

/-- A finished flowset with records is well formed. -/
theorem Open.wellFormed (h : Open st n mid fam rs tail) (hrs : rs ≠ []) :
    (DataFlowset.mk fam rs (tail.take st.padding)).WellFormed := by
  have hoff := h.offset_eq
  have hsize := h.size
  have haligned := h.aligned
  have hdvd := st.dvd_add_padding
  have hpad := st.padding_lt
  rw [length_openBytes] at hoff
  have hmax : nf9MaxPacketSize = 512 := rfl
  have htake : (tail.take st.padding).length = st.padding := by
    rw [List.length_take]
    omega
  have hlen : 4 ≤ fam.recordLen := by cases fam <;> decide
  refine ⟨h.family, hrs, ?_, ?_⟩
  · change (tail.take st.padding).length < fam.recordLen
    omega
  · change 4 ∣ 4 + ((recordBytes rs).length + (tail.take st.padding).length)
    omega

/-- Opening a flowset for a flow. -/
theorem Filled.openHeader {ts : Nf9Statics} (h : Filled st n mid [] tail)
    (hts : ts.v4Template = Softflowd.v4Template ∧ ts.v6Template = Softflowd.v6Template) {f : Flow}
    (hf : f.Exportable) (hroom : 4 ≤ tail.length) :
    Open (st.openHeader ts f) n mid f.nf9Family [] (tail.drop 4) := by
  have hoff := h.offset_eq
  have hsize := h.size
  rw [List.length_nil, Nat.add_zero] at hoff
  -- the identifier is that of the template for the family of the flow
  have hid : (if f.af = afInet then ts.v4Template.templateId else ts.v6Template.templateId) =
      htons f.nf9Family.templateId := by
    unfold Flow.nf9Family
    rw [hts.1, hts.2]
    split <;> rfl
  have hnil : openBytes f.nf9Family [] = le16 (htons f.nf9Family.templateId) ++ le16 4 := rfl
  refine ⟨⟨?_, ?_, ?_, h.aligned⟩, ?_, hf.af_eq.symm, ?_⟩
  · have hpre : st.offset =
        (le16 (htons 9) ++ (le16 (UInt16.ofNat n) ++ mid)).length := by
      simp only [List.length_append, length_le16]
      omega
    have hpacket : st.packet = (le16 (htons 9) ++ (le16 (UInt16.ofNat n) ++ mid)) ++ tail := by
      rw [h.packet_eq]
      simp only [layout, List.nil_append, List.append_assoc]
    simp only [V9Packet.openHeader, hid]
    rw [hpacket, poke_append_left hpre, hnil]
    simp only [layout, List.append_assoc, List.length_append, length_le16]
  · change st.offset + 4 = _
    rw [hoff, hnil]
    simp only [List.length_append, length_le16]
    omega
  · change st.offset + 4 + _ = _
    rw [List.length_drop]
    omega
  · change some st.offset = _
    rw [hoff]
  · intro r hr
    cases hr

/-- The used and the free part of the buffer. -/
theorem Filled.packet_split {cur : List UInt8} (h : Filled st n mid cur tail) :
    ∃ a, st.packet = a ++ tail ∧ a.length = st.offset ∧
      tail.length = nf9MaxPacketSize - st.offset ∧
      a = le16 (htons 9) ++ (le16 (UInt16.ofNat n) ++ (mid ++ cur)) := by
  have hoff := h.offset_eq
  have hsize := h.size
  refine ⟨_, ?_, ?_, by omega, rfl⟩
  · rw [h.packet_eq]
    simp only [layout, List.append_assoc]
  · simp only [List.length_append, length_le16]
    omega

/-- Bytes behind the offset do not matter. -/
theorem Open.of_tail {a t : List UInt8} (h : Open st n mid fam rs tail)
    (ha : a = le16 (htons 9) ++ (le16 (UInt16.ofNat n) ++ (mid ++ openBytes fam rs)))
    (ht : t.length = tail.length) : Open { st with packet := a ++ t } n mid fam rs t where
  packet_eq := by
    rw [ha]
    simp only [layout, List.append_assoc]
  offset_eq := h.offset_eq
  size := by
    have hsize := h.size
    change st.offset + t.length = _
    omega
  aligned := h.aligned
  dh_eq := h.dh_eq
  lastAf_eq := h.lastAf_eq
  family := h.family

/-- Counting the records of a flow that have been copied behind an open flowset. -/
theorem Open.count {a : List UInt8} {new : List Nf9Data} (h : Open st n mid fam rs tail)
    (ha : a = le16 (htons 9) ++ (le16 (UInt16.ofNat n) ++ (mid ++ openBytes fam rs)))
    (hfam : ∀ r ∈ new, r.family = fam) (hfit : (recordBytes new).length ≤ tail.length) :
    Open (st.count new.length (recordBytes new).length
      (a ++ (recordBytes new ++ tail.drop (recordBytes new).length))) (n + new.length) mid fam
      (rs ++ new) (tail.drop (recordBytes new).length) := by
  have hoff := h.offset_eq
  have hsize := h.size
  have hlen : (openBytes fam (rs ++ new)).length =
      (openBytes fam rs).length + (recordBytes new).length := by
    simp only [length_openBytes, recordBytes_append, List.length_append]
    omega
  refine ⟨⟨?_, ?_, ?_, h.aligned⟩, h.dh_eq, h.lastAf_eq, ?_⟩
  · -- first the length of the flowset is updated, then the number of flows
    set free := tail.drop (recordBytes new).length
    set pre := le16 (htons 9) ++ (le16 (UInt16.ofNat n) ++ (mid ++ le16 (htons fam.templateId)))
      with hpre
    have hprelen : 4 + mid.length + 2 = pre.length := by
      rw [hpre]
      simp only [List.length_append, length_le16]
      omega
    have hpacket : a ++ (recordBytes new ++ free) =
        pre ++ (le16 (UInt16.ofNat (4 + (recordBytes rs).length)) ++
          (recordBytes rs ++ (recordBytes new ++ free))) := by
      rw [ha, hpre]
      simp only [openBytes, List.append_assoc]
    have hlength : poke (a ++ (recordBytes new ++ free)) (4 + mid.length + 2)
        (le16 (peek16 (a ++ (recordBytes new ++ free)) (4 + mid.length + 2) +
          UInt16.ofNat (recordBytes new).length)) =
        layout n mid (openBytes fam (rs ++ new)) free := by
      rw [hpacket, peek16_append hprelen, poke_append hprelen (by simp), ← UInt16.ofNat_add,
        layout_openBytes, ← hpre]
      simp only [recordBytes_append, List.length_append, List.append_assoc, Nat.add_assoc]
    have hflows : ∀ m, layout m mid (openBytes fam (rs ++ new)) free =
        le16 (htons 9) ++ (le16 (UInt16.ofNat m) ++
          (mid ++ (openBytes fam (rs ++ new) ++ free))) := fun m => rfl
    have htwo : 2 = (le16 (htons 9)).length := rfl
    simp only [V9Packet.count, h.dh_eq]
    rw [hlength, hflows, peek16_append htwo, poke_append htwo (by simp), ← UInt16.ofNat_add]
    rfl
  · change st.offset + _ = _
    omega
  · change st.offset + _ + _ = _
    rw [List.length_drop]
    omega
  · -- the new records are of the family of the flowset
    intro r hr
    rcases List.mem_append.mp hr with hr | hr
    · exact h.family r hr
    · exact hfam r hr

/-- The packet after the inner loop and the header behind it. -/
theorem Filled.finish (h : Filled st.finishHeader n mid [] tail) :
    st.finish.packet.take st.finish.offset =
      le16 (htons 9) ++ (le16 (htons (UInt16.ofNat n)) ++ mid) := by
  have htwo : 2 = (le16 (htons 9)).length := rfl
  have hpacket : st.finish.packet =
      (le16 (htons 9) ++ (le16 (htons (UInt16.ofNat n)) ++ mid)) ++ tail := by
    simp only [V9Packet.finish]
    rw [h.packet_eq, layout, peek16_append htwo, poke_append htwo (by simp)]
    simp only [List.nil_append, List.append_assoc]
  have hoff : st.finish.offset =
      (le16 (htons 9) ++ (le16 (htons (UInt16.ofNat n)) ++ mid)).length := by
    have := h.offset_eq
    rw [List.length_nil, Nat.add_zero] at this
    simp only [V9Packet.finish, List.length_append, length_le16]
    omega
  rw [hpacket, hoff, List.take_left]

/-! ## The inner loop -/

/-- The packet `out` is complete up to its last header: `n` records stand before `mid`, and behind
it the `pending` ones and those of the flows `taken`. -/
def FilledWith (boot : Timeval) (n : ℕ) (mid : List UInt8) (pending : List Nf9Data)
    (taken : List Flow) (out : V9Packet) : Prop :=
  ∃ sets tail,
    Filled out.finishHeader (n + (taken.flatMap (·.nf9Records boot)).length)
      (mid ++ dataBytes sets) [] tail ∧
    (∀ s ∈ sets, s.WellFormed) ∧
    sets.flatMap DataFlowset.records = pending ++ taken.flatMap (·.nf9Records boot)

/-- The records of a flow that has been taken were pending after it. -/
theorem FilledWith.cons {boot : Timeval} {f : Flow} {taken : List Flow} {out : V9Packet}
    (h : FilledWith boot (n + (f.nf9Records boot).length) mid (rs ++ f.nf9Records boot) taken out) :
    FilledWith boot n mid rs (f :: taken) out := by
  obtain ⟨sets, tail, hfilled, hwf, hrecords⟩ := h
  refine ⟨sets, tail, ?_, hwf, ?_⟩
  · rwa [List.flatMap_cons, List.length_append, ← Nat.add_assoc]
  · rw [hrecords, List.flatMap_cons, List.append_assoc]

/-- A finished flowset in front. -/
theorem FilledWith.prepend {boot : Timeval} {s : DataFlowset} {taken : List Flow}
    {out : V9Packet} (h : FilledWith boot n (mid ++ s.flowset.bytes) [] taken out)
    (hs : s.WellFormed) : FilledWith boot n mid s.records taken out := by
  obtain ⟨sets, tail, hfilled, hwf, hrecords⟩ := h
  refine ⟨s :: sets, tail, ?_, ?_, ?_⟩
  · rwa [dataBytes, List.flatMap_cons, ← List.append_assoc]
  · exact List.forall_mem_cons.mpr ⟨hs, hwf⟩
  · rw [List.flatMap_cons, hrecords, List.nil_append]

/-- A packet whose headers are finished. -/
theorem Filled.filledWith (h : Filled st n mid [] tail) (hdh : st.dh = none) (boot : Timeval) :
    FilledWith boot n mid [] [] st := by
  have hfinish : st.finishHeader = st := by
    unfold V9Packet.finishHeader
    rw [hdh]
  refine ⟨[], tail, ?_, List.forall_mem_nil _, rfl⟩
  rw [hfinish]
  simpa [dataBytes] using h

/-- A packet that ends with an open flowset. -/
theorem Open.filledWith (h : Open st n mid fam rs tail) (hrs : rs ≠ []) (boot : Timeval) :
    FilledWith boot n mid rs [] st := by
  refine ⟨[⟨fam, rs, tail.take st.padding⟩], tail.drop st.padding, ?_, ?_, ?_⟩
  · simpa [dataBytes] using h.finishHeader
  · exact List.forall_mem_singleton.mpr (h.wellFormed hrs)
  · simp

/-- A header without records is yanked off; what is left of it stands behind the packet. -/
theorem Open.yank (h : Open st n mid fam [] tail) (boot : Timeval) :
    FilledWith boot n mid [] [] { st with offset := 4 + mid.length } := by
  have hoff := h.offset_eq
  have hsize := h.size
  have haligned := h.aligned
  rw [length_openBytes] at hoff
  -- with the header taken off, the offset is aligned, so nothing is padded
  have hpad : ¬ (4 + mid.length) % 4 ≠ 0 := by omega
  set pre := le16 (htons 9) ++ (le16 (UInt16.ofNat n) ++ (mid ++ le16 (htons fam.templateId)))
    with hpre
  have hprelen : 4 + mid.length + 2 = pre.length := by
    rw [hpre]
    simp only [List.length_append, length_le16]
    omega
  set length := peek16 st.packet (4 + mid.length + 2) + UInt16.ofNat 0
  have hfinish : V9Packet.finishHeader { st with offset := 4 + mid.length } = { st with
      packet := poke st.packet (4 + mid.length + 2) (le16 (htons length))
      offset := 4 + mid.length } := by
    unfold V9Packet.finishHeader
    simp only [h.dh_eq, if_neg hpad]
    rfl
  refine ⟨[], le16 (htons fam.templateId) ++ (le16 (htons length) ++ (recordBytes [] ++ tail)), ?_,
    List.forall_mem_nil _, rfl⟩
  rw [hfinish]
  refine ⟨?_, ?_, ?_, ?_⟩
  · change poke st.packet _ _ = _
    rw [h.packet_eq, layout_openBytes, ← hpre, poke_append hprelen (by simp)]
    simp only [hpre, layout, dataBytes, List.flatMap_nil, List.length_nil, Nat.add_zero,
      List.append_nil, List.nil_append, List.append_assoc]
  · simp [dataBytes]
  · change 4 + mid.length + _ = _
    simp only [List.length_append, length_le16]
    omega
  · simpa [dataBytes] using haligned

variable {ts : Nf9Statics} {boot : Timeval} {f : Flow} {fs : List Flow}

/-- The inner loop at a flow for which there is an open flowset. -/
theorem fill_of_flowsetFor {st' : V9Packet} (h : st.flowsetFor ts f = .ok st') {r : ℤ} {inc : ℕ}
    {packet : List UInt8}
    (hr : nfFlowToFlowset f st'.packet st'.offset (nf9MaxPacketSize - st'.offset) boot =
      (r, inc, packet)) :
    fill ts boot (f :: fs) st =
      if r ≤ 0 then
        ({ st' with
          packet := packet
          offset := if st'.lastValid ≠ 0 then st'.lastValid else st'.offset }, f :: fs)
      else fill ts boot fs (st'.count r.toNat inc packet) := by
  rw [fill, h]
  simp only [hr]

/-- A flow whose records fit is added to the open flowset. -/
theorem Open.fill_fits (fs : List Flow) {st' : V9Packet} (h : Open st' n mid f.nf9Family rs tail)
    (hflowset : st.flowsetFor ts f = .ok st') (hf : f.Exportable)
    (hfit : (recordBytes (f.nf9Records boot)).length ≤ tail.length) :
    ∃ st'' tail', fill ts boot (f :: fs) st = fill ts boot fs st'' ∧ st''.lastValid = 0 ∧
      Open st'' (n + (f.nf9Records boot).length) mid f.nf9Family (rs ++ f.nf9Records boot)
        tail' := by
  obtain ⟨a, hpacket, hlen, hfree, ha⟩ := h.packet_split
  rcases nfFlowToFlowset_cases hf boot a tail with ⟨-, hcopy⟩ | ⟨hlt, -⟩
  · rw [← hpacket, hlen, hfree] at hcopy
    have hpos : ¬ ((f.nf9Records boot).length : ℤ) ≤ 0 := by
      have := (hf.length_nf9Records boot).1
      omega
    rw [fill_of_flowsetFor hflowset hcopy, if_neg hpos, Int.toNat_natCast]
    exact ⟨_, _, rfl, rfl, h.count ha (fun r hr => Flow.family_of_mem_nf9Records hr) hfit⟩
  · exact absurd hfit (Nat.not_le.mpr hlt)

/-- A flow whose records do not fit ends the packet. -/
theorem Open.fill_full (fs : List Flow) {st' : V9Packet} (h : Open st' n mid f.nf9Family rs tail)
    (hflowset : st.flowsetFor ts f = .ok st') (hf : f.Exportable)
    (hvalid : st'.lastValid = if rs = [] then 4 + mid.length else 0)
    (hfull : tail.length < (recordBytes (f.nf9Records boot)).length) :
    ∃ out, fill ts boot (f :: fs) st = (out, f :: fs) ∧ FilledWith boot n mid rs [] out := by
  obtain ⟨a, hpacket, hlen, hfree, ha⟩ := h.packet_split
  rcases nfFlowToFlowset_cases hf boot a tail with ⟨hle, -⟩ | ⟨-, t, ht, hcopy⟩
  · exact absurd hfull (Nat.not_lt.mpr hle)
  · rw [← hpacket, hlen, hfree] at hcopy
    rw [fill_of_flowsetFor hflowset hcopy, if_pos (by decide)]
    refine ⟨_, rfl, ?_⟩
    have hopen := h.of_tail ha ht
    by_cases hrs : rs = []
    · -- the header that has just been opened is yanked off
      have hback : st'.lastValid = 4 + mid.length := by rw [hvalid, if_pos hrs]
      subst hrs
      rw [if_pos (by omega), hback]
      have hyank := hopen.yank boot
      rwa [hback] at hyank
    · have hkeep : st'.lastValid = 0 := by rw [hvalid, if_neg hrs]
      rw [if_neg (by omega)]
      exact hopen.filledWith hrs boot

/-- The templates are those of `nf9_init_template`. -/
def Initialised (ts : Nf9Statics) : Prop :=
  ts.v4Template = Softflowd.v4Template ∧ ts.v6Template = Softflowd.v6Template

/-- The inner loop behind an open flowset takes a first part of the flows. -/
theorem Open.fill_spec (boot : Timeval) {flows : List Flow} (hts : Initialised ts)
    (h : Open st n mid fam rs tail)
    (hrs : rs ≠ []) (hvalid : st.lastValid = 0) (hflows : ∀ f ∈ flows, f.Exportable) :
    ∃ taken, flows = taken ++ (fill ts boot flows st).2 ∧
      FilledWith boot n mid rs taken (fill ts boot flows st).1 := by
  induction flows generalizing st n mid fam rs tail with
  | nil => exact ⟨[], rfl, h.filledWith hrs boot⟩
  | cons f fs ih =>
    have hf : f.Exportable := hflows f List.mem_cons_self
    have hfs : ∀ g ∈ fs, g.Exportable := fun g hg => hflows g (List.mem_cons_of_mem f hg)
    have hnew : f.nf9Records boot ≠ [] := List.length_pos_iff.mp (hf.length_nf9Records boot).1
    by_cases haf : f.af = st.lastAf
    · -- the flow belongs into the open flowset
      have hfam : fam = f.nf9Family := by
        have heq : fam.af = f.nf9Family.af := by rw [hf.af_eq, haf, h.lastAf_eq]
        cases hx : fam <;> cases hy : f.nf9Family <;> rw [hx, hy] at heq <;>
          first | rfl | exact absurd heq (by decide)
      subst hfam
      have hflowset : st.flowsetFor ts f = .ok st := by
        rw [V9Packet.flowsetFor, if_neg]
        rintro (hnone | hne)
        · rw [h.dh_eq] at hnone
          cases hnone
        · exact hne haf
      -- either its records fit, or the loop stops in front of them
      by_cases hfit : (recordBytes (f.nf9Records boot)).length ≤ tail.length
      · obtain ⟨st'', tail', hfill, hvalid'', hopen⟩ := h.fill_fits fs hflowset hf hfit
        obtain ⟨taken, htaken, hwith⟩ := ih hopen (List.append_ne_nil_of_right_ne_nil rs hnew)
          hvalid'' hfs
        rw [hfill]
        exact ⟨f :: taken, congrArg (f :: ·) htaken, hwith.cons⟩
      · obtain ⟨out, hfill, hwith⟩ := h.fill_full fs hflowset hf
          (by rw [hvalid, if_neg hrs]) (Nat.lt_of_not_le hfit)
        rw [hfill]
        exact ⟨[], rfl, hwith⟩
    · -- the open flowset is finished
      have hclosed := h.finishHeader
      have hwf := h.wellFormed hrs
      generalize hs : DataFlowset.mk fam rs (tail.take st.padding) = s at hclosed hwf
      obtain rfl : s.records = rs := by rw [← hs]
      have hcond : st.dh = none ∨ f.af ≠ st.lastAf := .inr haf
      -- there may be no room for a header; otherwise a new flowset is opened behind the padding
      by_cases hroom : st.finishHeader.offset + 4 > nf9MaxPacketSize
      · have hflowset : st.flowsetFor ts f = .error { st.finishHeader with dh := none } := by
          rw [V9Packet.flowsetFor, if_pos hcond]
          exact if_pos hroom
        rw [fill, hflowset]
        refine ⟨[], rfl, ?_⟩
        have hnone : Filled { st.finishHeader with dh := none } n (mid ++ s.flowset.bytes) []
            (tail.drop st.padding) :=
          ⟨hclosed.packet_eq, hclosed.offset_eq, hclosed.size, hclosed.aligned⟩
        exact (hnone.filledWith rfl boot).prepend hwf
      · have hflowset : st.flowsetFor ts f = .ok (st.finishHeader.openHeader ts f) := by
          rw [V9Packet.flowsetFor, if_pos hcond]
          exact if_neg hroom
        have hfree : 4 ≤ (tail.drop st.padding).length := by
          have := hclosed.size
          omega
        have hopen := hclosed.openHeader hts hf hfree
        have hstart : (st.finishHeader.openHeader ts f).lastValid =
            4 + (mid ++ s.flowset.bytes).length := by
          change st.finishHeader.offset = _
          rw [hclosed.offset_eq, List.length_nil, Nat.add_zero]
        by_cases hfit : (recordBytes (f.nf9Records boot)).length ≤
            ((tail.drop st.padding).drop 4).length
        · obtain ⟨st'', tail', hfill, hvalid'', hopen''⟩ :=
            hopen.fill_fits fs hflowset hf hfit
          rw [List.nil_append] at hopen''
          obtain ⟨taken, htaken, hwith⟩ := ih hopen'' hnew hvalid'' hfs
          rw [hfill]
          refine ⟨f :: taken, congrArg (f :: ·) htaken, ?_⟩
          exact (FilledWith.cons (by rwa [List.nil_append])).prepend hwf
        · obtain ⟨out, hfill, hwith⟩ := hopen.fill_full fs hflowset hf
            (by rw [hstart, if_pos rfl]) (Nat.lt_of_not_le hfit)
          rw [hfill]
          exact ⟨[], rfl, hwith.prepend hwf⟩

/-- The inner loop on a new packet takes at least one flow, if there is room for a header and two
records. -/
theorem Filled.fill_spec (boot : Timeval) (hts : Initialised ts) (h : Filled st n mid [] tail)
    (hdh : st.dh = none) (hroom : 114 ≤ tail.length) (hf : f.Exportable)
    (hfs : ∀ g ∈ fs, g.Exportable) :
    ∃ taken, fs = taken ++ (fill ts boot (f :: fs) st).2 ∧
      FilledWith boot n mid [] (f :: taken) (fill ts boot (f :: fs) st).1 := by
  have hnew : f.nf9Records boot ≠ [] := List.length_pos_iff.mp (hf.length_nf9Records boot).1
  have hfinish : st.finishHeader = st := by
    rw [V9Packet.finishHeader, hdh]
  have hflowset : st.flowsetFor ts f = .ok (st.openHeader ts f) := by
    rw [V9Packet.flowsetFor, if_pos (.inl hdh), hfinish]
    have hsize := h.size
    exact if_neg (by omega)
  have hopen := h.openHeader hts hf (by omega)
  have hfit : (recordBytes (f.nf9Records boot)).length ≤ (tail.drop 4).length := by
    have htwo := (hf.length_nf9Records boot).2
    have hlen : f.nf9Family.recordLen ≤ 55 := by cases f.nf9Family <;> decide
    rw [length_recordBytes fun r hr => Flow.family_of_mem_nf9Records hr, List.length_drop]
    have := Nat.mul_le_mul htwo hlen
    omega
  obtain ⟨st', tail', hfill, hvalid, hopen'⟩ := hopen.fill_fits fs hflowset hf hfit
  rw [List.nil_append] at hopen'
  obtain ⟨taken, htaken, hwith⟩ := hopen'.fill_spec boot hts hnew hvalid hfs
  rw [hfill]
  exact ⟨taken, htaken, FilledWith.cons (by rwa [List.nil_append])⟩

end V9Packet

end Softflowd
