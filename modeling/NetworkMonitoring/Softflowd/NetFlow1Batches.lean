import NetworkMonitoring.Foundations.ErrorLoops
import NetworkMonitoring.Softflowd.NetFlow1

/-!
# softflowd — the datagrams of the NetFlow v1 exporter

What a call of `send_netflow_v1` sends, whichever of its `send` calls fail. `V1Env.records` is the
list of records one flow contributes, at most one for each value of `inOut`. The invariant `Run`
splits the records of the flows handled so far into the datagrams already sent and the packet
still being filled.

## Main results

* `sendLoopV1_ends`: the datagrams are counted in their headers and carry the records of the
  flows, in order; all of them unless a `send` failed;
* `sendNetflowV1_spec`: the same for `send_netflow_v1`;
* `sendNetflowV1_silent`: a call with `inOut = -1` sends nothing.
-/

namespace Softflowd

open Bytes ErrorLoops InetText

/-- A datagram of the exporter: a header and the records behind it. -/
structure Nf1Datagram where
  hdr : Nf1Header
  flows : List Nf1Flow

/-- The bytes of a datagram. -/
def Nf1Datagram.bytes (d : Nf1Datagram) : List UInt8 := d.hdr.bytes ++ d.flows.flatMap Nf1Flow.bytes

theorem Nf1Datagram.length_bytes (d : Nf1Datagram) :
    d.bytes.length = 20 + d.flows.length * 56 := by
  rw [Nf1Datagram.bytes, List.length_append, Nf1Header.length_bytes,
    length_flatMap_const Nf1Flow.length_bytes]

/-- The records of a list of datagrams. -/
def nf1Records (ds : List Nf1Datagram) : List Nf1Flow := ds.flatMap Nf1Datagram.flows

@[simp]
theorem nf1Records_append (ds ds' : List Nf1Datagram) :
    nf1Records (ds ++ ds') = nf1Records ds ++ nf1Records ds' :=
  List.flatMap_append

/-- The records of one flow. -/
def V1Env.records (env : V1Env) (f : Flow) : List Nf1Flow :=
  if f.af = afInet then ([0, 1].filter (env.selects f)).map (env.record f) else []

theorem V1Env.record_mem {env : V1Env} {f : Flow} {d : Dir} (haf : f.af = afInet)
    (hsel : env.selects f d) : env.record f d ∈ env.records f := by
  have hd : d ∈ [0, 1].filter (env.selects f) := by
    refine List.mem_filter.mpr ⟨?_, hsel⟩
    fin_cases d <;> decide
  rw [V1Env.records, if_pos haf]
  exact List.mem_map_of_mem hd

/-- A datagram of 1 to 24 records, as its header says. -/
structure Nf1Datagram.Counted (d : Nf1Datagram) : Prop where
  flows_pos : 0 < d.flows.length
  flows_le : d.flows.length ≤ nf1MaxFlows
  hdr_flows : d.hdr.flows = htons (UInt16.ofNat d.flows.length)

namespace V1Send

/-- The records of the packet being filled; the buffer of a sent packet is not cleared. -/
def pending (st : V1Send) : List Nf1Flow := if st.j = 0 then [] else st.flows

/-- The packet being filled is consistent. -/
structure Filling (st : V1Send) : Prop where
  length_flows : st.flows.length = st.j
  offset_eq : st.offset = 20 + 56 * st.j
  hdr_flows : st.hdr.flows = UInt16.ofNat st.j

/-- The state of `send_netflow_v1` started with the socket `net` after the flows with the records
`rs`. -/
structure Run (net : Net) (rs : List Nf1Flow) (ds : List Nf1Datagram) (st : V1Send) : Prop where
  sent_eq : st.net.sent = net.sent ++ ds.map Nf1Datagram.bytes
  counted : ∀ d ∈ ds, d.Counted
  filling : st.j ≠ 0 → st.Filling
  j_le : st.j ≤ nf1MaxFlows
  records_eq : nf1Records ds ++ st.pending = rs

/-- A call that gave up before all of the records `rs` were sent. -/
def GaveUp (net : Net) (rs : List Nf1Flow) (st : V1Send) : Prop :=
  ∃ ds, st.net.sent = net.sent ++ ds.map Nf1Datagram.bytes ∧
    (∀ d ∈ ds, Nf1Datagram.Counted d) ∧ nf1Records ds <+: rs

theorem GaveUp.mono {net : Net} {rs rs' : List Nf1Flow} {st : V1Send} (h : GaveUp net rs st)
    (hrs : rs <+: rs') : GaveUp net rs' st := by
  obtain ⟨ds, hsent, hcounted, hpre⟩ := h
  exact ⟨ds, hsent, hcounted, hpre.trans hrs⟩

variable {env : V1Env} {net : Net} {rs : List Nf1Flow} {ds : List Nf1Datagram} {st : V1Send}

theorem Run.pending_eq (hf : st.Filling) : st.pending = st.flows := by
  by_cases hj : st.j = 0
  · have hnil : st.flows = [] := List.eq_nil_of_length_eq_zero (hf.length_flows.trans hj)
    rw [pending, if_pos hj, hnil]
  · exact if_neg hj

/-- Sending the packet being filled adds one datagram, unless `send` fails. -/
theorem Run.flush (h : Run net rs ds st) (hj : st.j ≠ 0) :
    Ends (GaveUp net rs) (fun st' => st'.j = 0 ∧ ∃ ds', Run net rs ds' st') st.flush := by
  have hf := h.filling hj
  let d : Nf1Datagram := ⟨{ st.hdr with flows := htons st.hdr.flows }, st.flows⟩
  have htake : (d.hdr.bytes ++ st.flows.flatMap Nf1Flow.bytes).take st.offset = d.bytes := by
    apply List.take_of_length_le
    change d.bytes.length ≤ st.offset
    rw [d.length_bytes, hf.offset_eq, hf.length_flows, Nat.mul_comm]
  have hd : d.Counted := by
    refine ⟨?_, ?_, ?_⟩
    · exact hf.length_flows ▸ Nat.pos_of_ne_zero hj
    · exact hf.length_flows ▸ h.j_le
    · simp only [d, hf.hdr_flows, hf.length_flows]
  by_cases hfails : st.net.sendFails st.net.attempts
  · -- the datagrams sent before stay sent
    have hflush : st.flush = .error { st with
        hdr := d.hdr, net := { st.net with attempts := st.net.attempts + 1 } } := by
      simp [V1Send.flush, Net.send, hfails, d]
    rw [hflush]
    exact ⟨ds, h.sent_eq, h.counted, h.records_eq ▸ List.prefix_append _ _⟩
  · have hflush : st.flush = .ok { st with
        hdr := d.hdr
        net := { st.net with sent := st.net.sent ++ [d.bytes], attempts := st.net.attempts + 1 }
        exported := st.exported + UInt64.ofNat st.j
        j := 0
        numPackets := st.numPackets + 1 } := by
      rw [← htake]
      simp [V1Send.flush, Net.send, hfails, d]
    rw [hflush]
    refine ⟨rfl, ds ++ [d], ?_, ?_, ?_, Nat.zero_le _, ?_⟩
    · simp [h.sent_eq]
    · intro e he
      rcases List.mem_append.mp he with he | he
      · exact h.counted e he
      · rw [List.mem_singleton.mp he]
        exact hd
    · intro h0
      exact absurd rfl h0
    · rw [← h.records_eq, Run.pending_eq hf]
      simp [pending, nf1Records, d]

/-- Writing the record of a direction keeps the packet consistent. -/
theorem Run.put (h : Run net rs ds st) (env : V1Env) (f : Flow) (d : Dir) (hf : st.Filling)
    (hj : st.j < nf1MaxFlows) :
    Run net (rs ++ if env.selects f d then [env.record f d] else []) ds (put env f st d) ∧
      (V1Send.put env f st d).Filling := by
  -- a direction without octets writes nothing
  by_cases hsel : env.selects f d
  · have hput : V1Send.put env f st d = { st with
        flows := st.flows ++ [env.record f d]
        offset := st.offset + 56
        j := st.j + 1
        hdr := { st.hdr with flows := st.hdr.flows + 1 } } := if_pos hsel
    have hfill : (V1Send.put env f st d).Filling := by
      rw [hput]
      refine ⟨?_, ?_, ?_⟩
      · simp [hf.length_flows]
      · simp only [hf.offset_eq]
        omega
      · simp [hf.hdr_flows, UInt16.ofNat_add]
    refine ⟨⟨?_, h.counted, fun _ => hfill, ?_, ?_⟩, hfill⟩
    · rw [hput]; exact h.sent_eq
    · rw [hput]; exact hj
    · rw [Run.pending_eq hfill, hput, if_pos hsel, ← h.records_eq, Run.pending_eq hf,
        List.append_assoc]
  · have hput : V1Send.put env f st d = st := if_neg hsel
    rw [hput, if_neg hsel, List.append_nil]
    exact ⟨h, hf⟩

theorem put_j (env : V1Env) (f : Flow) (st : V1Send) (d : Dir) :
    (put env f st d).j = st.j + if env.selects f d then 1 else 0 := by
  by_cases hsel : env.selects f d
  · simp [put, hsel]
  · simp [put, hsel]

/-- Room is made in the packet before a flow is looked at. -/
theorem Run.makeRoom (h : Run net rs ds st) :
    Ends (GaveUp net rs) (fun st' => st'.j + 2 ≤ nf1MaxFlows ∧ ∃ ds', Run net rs ds' st')
      st.makeRoom := by
  by_cases hj : st.j ≥ nf1MaxFlows - 1
  · rw [V1Send.makeRoom, if_pos hj]
    have hpos : st.j ≠ 0 := Nat.ne_of_gt (Nat.lt_of_lt_of_le (by decide) hj)
    apply (h.flush hpos).imp (fun _ he => he)
    rintro st' ⟨hj', hrun⟩
    exact ⟨by rw [hj']; decide, hrun⟩
  · rw [V1Send.makeRoom, if_neg hj]
    refine ⟨?_, ds, h⟩
    simp only [nf1MaxFlows] at hj ⊢
    omega

/-- A packet is open for records when the loop looks at a flow. -/
theorem Run.open (h : Run net rs ds st) (env : V1Env) :
    Run net rs ds (if st.j = 0 then st.start env else st) ∧
      (if st.j = 0 then st.start env else st).Filling := by
  by_cases hj : st.j = 0
  · rw [if_pos hj]
    refine ⟨⟨h.sent_eq, h.counted, fun h0 => absurd hj h0, h.j_le, ?_⟩, ⟨hj.symm, ?_, ?_⟩⟩
    · simpa [pending, hj, V1Send.start] using h.records_eq
    · simp [V1Send.start, hj]
    · simp [V1Send.start, hj, V1Env.header]
  · rw [if_neg hj]
    exact ⟨h, h.filling hj⟩

/-- The name of the monitor in the header is not a record. -/
theorem Run.nameMonitor (h : Run net rs ds st) (env : V1Env) (f : Flow) (hf : st.Filling) :
    Run net rs ds (nameMonitor env f st) ∧ (V1Send.nameMonitor env f st).Filling := by
  by_cases hc : st.j = 0 ∧ env.usingEmulator
  · rw [V1Send.nameMonitor, if_pos hc]
    exact ⟨⟨h.sent_eq, h.counted, fun h0 => absurd hc.1 h0, h.j_le, h.records_eq⟩,
      ⟨hf.length_flows, hf.offset_eq, hf.hdr_flows⟩⟩
  · rw [V1Send.nameMonitor, if_neg hc]
    exact ⟨h, hf⟩

theorem nameMonitor_j (env : V1Env) (f : Flow) (st : V1Send) :
    (nameMonitor env f st).j = st.j := by
  by_cases hc : st.j = 0 ∧ env.usingEmulator
  · rw [nameMonitor, if_pos hc]
  · rw [nameMonitor, if_neg hc]

/-- One flow: its records are appended, in at most one more datagram. -/
theorem step_ends (f : Flow) (h : Run net rs ds st) :
    Ends (GaveUp net rs) (fun st' => ∃ ds', Run net (rs ++ env.records f) ds' st')
      (step env st f) := by
  apply h.makeRoom.bind
  rintro st₁ ⟨hj₁, ds₁, hrun₁⟩
  obtain ⟨hrun₂, hfill₂⟩ := hrun₁.open env
  have hj₂ : (if st₁.j = 0 then st₁.start env else st₁).j = st₁.j := by
    split <;> rfl
  generalize (if st₁.j = 0 then st₁.start env else st₁) = st₂ at hrun₂ hfill₂ hj₂ ⊢
  by_cases haf : f.af = afInet
  · obtain ⟨hrun₃, hfill₃⟩ := hrun₂.nameMonitor env f hfill₂
    have hj₃ := nameMonitor_j env f st₂
    obtain ⟨hrun₄, hfill₄⟩ := hrun₃.put env f 0 hfill₃ (by omega)
    obtain ⟨hrun₅, -⟩ := hrun₄.put env f 1 hfill₄
      (by rw [put_j, hj₃, hj₂]; split <;> omega)
    have hrecords : env.records f = (if env.selects f 0 then [env.record f 0] else []) ++
        (if env.selects f 1 then [env.record f 1] else []) := by
      simp only [V1Env.records, haf, if_true, List.filter_cons, List.filter_nil]
      split <;> split <;> rfl
    rw [if_neg (not_not.mpr haf), hrecords, ← List.append_assoc]
    exact ⟨ds₁, hrun₅⟩
  · rw [if_pos haf]
    exact ⟨ds₁, by simpa [V1Env.records, haf] using hrun₂⟩

end V1Send

/-- The loop of `send_netflow_v1` and the datagram for what is left over. -/
theorem sendLoopV1_ends (env : V1Env) (flows : List Flow) (st₀ : V1Send) (hj : st₀.j = 0) :
    Ends (V1Send.GaveUp st₀.net (flows.flatMap env.records))
      (fun st => st.j = 0 ∧ ∃ ds, V1Send.Run st₀.net (flows.flatMap env.records) ds st)
      (sendLoopV1 env flows st₀) := by
  have hstart : V1Send.Run st₀.net [] [] st₀ :=
    ⟨by simp, by simp, fun h0 => absurd hj h0, by simp [hj],
      by simp [V1Send.pending, hj, nf1Records]⟩
  have hloop : Ends (V1Send.GaveUp st₀.net (flows.flatMap env.records))
      (fun st => ∃ ds, V1Send.Run st₀.net (flows.flatMap env.records) ds st)
      (flows.foldlM (V1Send.step env) st₀) := by
    refine Ends.foldlM (I := fun pre st => ∃ ds, V1Send.Run st₀.net (pre.flatMap env.records) ds st)
      ?_ ⟨[], hstart⟩
    rintro pre f post st rfl ⟨ds, hrun⟩
    refine (V1Send.step_ends f hrun).imp (fun _ he => he.mono ?_) fun st' hst' => ?_
    · rw [List.flatMap_append]
      exact List.prefix_append _ _
    · simpa using hst'
  apply hloop.bind
  rintro st ⟨ds, hrun⟩
  by_cases hleft : st.j = 0
  · rw [if_neg (not_not.mpr hleft)]
    exact ⟨hleft, ds, hrun⟩
  · rw [if_pos hleft]
    exact hrun.flush hleft

/-- `send_netflow_v1` returns, and the datagrams `ds` it has sent are counted and carry the records
of the flows in order: all of them unless a `send` failed. -/
theorem sendNetflowV1_spec (usingEmulator : Bool) (now : Timeval)
    (asSrcArray asDstArray : Flow → UInt16) (flows : List Flow) (exported : UInt64)
    (boot : Timeval) (inOut : ℤ) (ex : Exporter) :
    ∃ (r : ℤ) (exported' : UInt64) (net : Net) (ds : List Nf1Datagram),
      sendNetflowV1 usingEmulator now asSrcArray asDstArray flows exported boot inOut ex =
        .ok (r, exported', { ex with net := net }) ∧
      net.sent = ex.net.sent ++ ds.map Nf1Datagram.bytes ∧ (∀ d ∈ ds, d.Counted) ∧
      nf1Records ds <+: flows.flatMap
        (V1Env.records ⟨usingEmulator, now, boot, inOut, asSrcArray, asDstArray⟩) ∧
      (r ≠ -1 → nf1Records ds = flows.flatMap
        (V1Env.records ⟨usingEmulator, now, boot, inOut, asSrcArray, asDstArray⟩)) := by
  rcases (sendLoopV1_ends ⟨usingEmulator, now, boot, inOut, asSrcArray, asDstArray⟩ flows
    { exported := exported, net := ex.net } rfl).cases with
    ⟨st, hloop, ds, hsent, hcounted, hpre⟩ | ⟨st, hloop, hj, ds, hrun⟩
  · refine ⟨-1, st.exported, st.net, ds, ?_, hsent, hcounted, hpre, fun h => absurd rfl h⟩
    rw [sendNetflowV1, hloop]
  · have hrecords := hrun.records_eq
    rw [V1Send.pending, if_pos hj, List.append_nil] at hrecords
    refine ⟨st.numPackets, st.exported, st.net, ds, ?_, hrun.sent_eq, hrun.counted,
      hrecords ▸ List.prefix_refl _, fun _ => hrecords⟩
    rw [sendNetflowV1, hloop]

/-- No direction of a flow is exported by a call with `inOut = -1`. -/
theorem V1Env.records_eq_nil (env : V1Env) (hinOut : env.inOut = -1) (f : Flow) :
    env.records f = [] := by
  have hselects : ∀ d, env.selects f d = false := by
    intro d
    fin_cases d <;> simp [V1Env.selects, hinOut]
  simp [V1Env.records, hselects]

/-- A call with `inOut = -1` sends nothing, whatever the flows are. -/
theorem sendNetflowV1_silent (usingEmulator : Bool) (now : Timeval)
    (asSrcArray asDstArray : Flow → UInt16) (flows : List Flow) (exported : UInt64)
    (boot : Timeval) (ex : Exporter) :
    ∃ (r : ℤ) (exported' : UInt64) (net : Net),
      sendNetflowV1 usingEmulator now asSrcArray asDstArray flows exported boot (-1) ex =
        .ok (r, exported', { ex with net := net }) ∧ net.sent = ex.net.sent := by
  obtain ⟨r, exported', net, ds, hcall, hsent, hcounted, hpre, -⟩ :=
    sendNetflowV1_spec usingEmulator now asSrcArray asDstArray flows exported boot (-1) ex
  refine ⟨r, exported', net, hcall, ?_⟩
  have hnone : nf1Records ds = [] := by
    have hall : flows.flatMap (V1Env.records ⟨usingEmulator, now, boot, -1, asSrcArray,
        asDstArray⟩) = [] := by
      simp [List.flatMap_eq_nil_iff, V1Env.records_eq_nil]
    rw [hall] at hpre
    exact List.prefix_nil.mp hpre
  -- a datagram has at least one record, so there is none
  have hds : ds = [] := by
    cases ds with
    | nil => rfl
    | cons d ds =>
      have hd := (hcounted d List.mem_cons_self).flows_pos
      have hnil : d.flows = [] := List.flatMap_eq_nil_iff.mp hnone d List.mem_cons_self
      simp [hnil] at hd
  rw [hsent, hds]
  simp

end Softflowd
