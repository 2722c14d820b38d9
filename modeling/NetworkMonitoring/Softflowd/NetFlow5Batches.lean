import NetworkMonitoring.Foundations.ErrorLoops
import NetworkMonitoring.Softflowd.NetFlow5

/-!
# softflowd — the datagrams of the NetFlow v5 exporter

What a call of `send_netflow_v5` sends. `V5Env.records` is the list of records one flow
contributes. The invariant `Run` splits the records of the flows handled so far into the datagrams
already sent and the packet still being filled; `step_ends` keeps it for one flow unless a `send`
fails, and `sendLoopV5_ends` for the whole loop.

## Main results

* `sendLoopV5_ends`: the datagrams sent before the first failing `send` are well formed, numbered
  by the records before them, and their records are those of the flows, in order;
* `sendLoopV5_spec`, `sendNetflowV5_spec`: when every `send` succeeds, all the records are sent.
-/

namespace Softflowd

open Bytes ErrorLoops InetText

/-- A datagram of the exporter: a header and the records behind it. -/
structure Nf5Datagram where
  hdr : Nf5Header
  flows : List Nf5Flow

/-- The bytes of a datagram. -/
def Nf5Datagram.bytes (d : Nf5Datagram) : List UInt8 := d.hdr.bytes ++ d.flows.flatMap Nf5Flow.bytes

/-- The records of a list of datagrams. -/
def nf5Records (ds : List Nf5Datagram) : List Nf5Flow := ds.flatMap Nf5Datagram.flows

@[simp]
theorem nf5Records_append (ds ds' : List Nf5Datagram) :
    nf5Records (ds ++ ds') = nf5Records ds ++ nf5Records ds' :=
  List.flatMap_append

@[simp]
theorem nf5Records_singleton (d : Nf5Datagram) : nf5Records [d] = d.flows :=
  List.flatMap_singleton _ _

/-- The records of one flow. -/
def V5Env.records (env : V5Env) (f : Flow) : List Nf5Flow :=
  if f.af = afInet then ([0, 1].filter (env.selects f)).map (env.record f) else []

/-- A datagram sent when `exported` records have been exported before it: between 1 and 30
records, counted in the header, which names the monitor of the first of them. -/
structure Nf5Datagram.WellFormed (env : V5Env) (exported : UInt64) (d : Nf5Datagram) : Prop where
  flows_pos : 0 < d.flows.length
  flows_le : d.flows.length ≤ nf5MaxFlows
  hdr_eq : d.hdr = { env.header exported with
    flows := htons (UInt16.ofNat d.flows.length)
    emulatorMonitorAdr := d.hdr.emulatorMonitorAdr }
  monitor : d.flows.head?.map Nf5Flow.emulatorMonitorAdr = some d.hdr.emulatorMonitorAdr

/-- Every datagram of a list is well formed and numbered by the records before it. -/
def Numbered (env : V5Env) (exported : UInt64) (ds : List Nf5Datagram) : Prop :=
  ∀ pre d post, ds = pre ++ d :: post →
    d.WellFormed env (exported + UInt64.ofNat (nf5Records pre).length)

theorem Numbered.nil (env : V5Env) (exported : UInt64) : Numbered env exported [] := by
  intro pre d post h
  simp at h

theorem Numbered.concat {env : V5Env} {exported : UInt64} {ds : List Nf5Datagram}
    {d : Nf5Datagram} (h : Numbered env exported ds)
    (hd : d.WellFormed env (exported + UInt64.ofNat (nf5Records ds).length)) :
    Numbered env exported (ds ++ [d]) := by
  intro pre e post he
  rcases post.eq_nil_or_concat with rfl | ⟨post, x, rfl⟩
  · -- `e` is the new datagram
    obtain ⟨rfl, rfl⟩ := List.append_inj' he rfl |>.imp_right (List.cons.inj · |>.1)
    exact hd
  · have hpost : ds ++ [d] = (pre ++ e :: post) ++ [x] := by simpa using he
    exact h pre e post (List.append_inj' hpost rfl).1

/-- The next `n` calls of `send` succeed. -/
def Net.Delivers (net : Net) (n : ℕ) : Prop := ∀ k < n, net.sendFails (net.attempts + k) = false

namespace V5Send

/-- The records of the packet being filled; the buffer of a sent packet is not cleared. -/
def pending (st : V5Send) : List Nf5Flow := if st.j = 0 then [] else st.flows

/-- The packet being filled is consistent, for the monitor `a`. -/
structure Filling (env : V5Env) (a : InAddr) (st : V5Send) : Prop where
  length_flows : st.flows.length = st.j
  offset_eq : st.offset = 28 + 56 * st.j
  hdr_eq : st.hdr = { env.header st.exported with
    flows := UInt16.ofNat st.j, emulatorMonitorAdr := a }
  monitor : ∀ r ∈ st.flows.head?, r.emulatorMonitorAdr = a

/-- The state of `send_netflow_v5` started at `st₀` after the flows with the records `rs`, with
`ds` the datagrams sent so far. -/
structure Run (env : V5Env) (st₀ : V5Send) (ds : List Nf5Datagram) (rs : List Nf5Flow)
    (st : V5Send) : Prop where
  net_eq : st.net = { st₀.net with
    sent := st₀.net.sent ++ ds.map Nf5Datagram.bytes
    attempts := st₀.net.attempts + ds.length }
  numPackets_eq : st.numPackets = st₀.numPackets + ds.length
  exported_eq : st.exported = st₀.exported + UInt64.ofNat (nf5Records ds).length
  numbered : Numbered env st₀.exported ds
  filling : st.j ≠ 0 → ∃ a, Filling env a st
  j_le : st.j ≤ nf5MaxFlows
  records_eq : nf5Records ds ++ st.pending = rs

/-- A consistent packet is sent whole. -/
theorem Filling.take_offset {env : V5Env} {a : InAddr} {st : V5Send} (h : Filling env a st)
    (hdr : Nf5Header) :
    (hdr.bytes ++ st.flows.flatMap Nf5Flow.bytes).take st.offset =
      (Nf5Datagram.mk hdr st.flows).bytes := by
  apply List.take_of_length_le
  rw [List.length_append, Nf5Header.length_bytes, length_flatMap_const Nf5Flow.length_bytes,
    h.length_flows, h.offset_eq, Nat.mul_comm]

/-- The state after the records `rs`, reached with successful `send` calls only. -/
def Going (env : V5Env) (st₀ : V5Send) (rs : List Nf5Flow) (st : V5Send) : Prop :=
  ∃ ds, Run env st₀ ds rs st ∧ st₀.net.Delivers ds.length

/-- A call that gave up at its first failing `send`, before all of the records `rs` were sent. -/
def GaveUp (env : V5Env) (st₀ : V5Send) (rs : List Nf5Flow) (stop : V5Stop) : Prop :=
  ∃ st ds, stop = .sendFailed st ∧ st.net.sent = st₀.net.sent ++ ds.map Nf5Datagram.bytes ∧
    Numbered env st₀.exported ds ∧ nf5Records ds <+: rs ∧ st₀.net.Delivers ds.length ∧
    st₀.net.sendFails (st₀.net.attempts + ds.length) = true

theorem GaveUp.mono {env : V5Env} {st₀ : V5Send} {rs rs' : List Nf5Flow} {stop : V5Stop}
    (h : GaveUp env st₀ rs stop) (hrs : rs <+: rs') : GaveUp env st₀ rs' stop := by
  obtain ⟨st, ds, hstop, hsent, hnum, hpre, hsends⟩ := h
  exact ⟨st, ds, hstop, hsent, hnum, hpre.trans hrs, hsends⟩

/-- Sending the packet being filled adds one well-formed datagram. -/
theorem Run.flush {env : V5Env} {st₀ st : V5Send} {ds : List Nf5Datagram} {rs : List Nf5Flow}
    (h : Run env st₀ ds rs st) (hj : st.j ≠ 0)
    (hsend : st₀.net.sendFails (st₀.net.attempts + ds.length) = false) :
    ∃ d st', st.flush = .ok st' ∧ st'.j = 0 ∧ Run env st₀ (ds ++ [d]) rs st' := by
  obtain ⟨a, hf⟩ := h.filling hj
  let d : Nf5Datagram := ⟨{ st.hdr with flows := htons st.hdr.flows }, st.flows⟩
  have hfails : st.net.sendFails st.net.attempts = false := by
    rw [h.net_eq]
    exact hsend
  -- the counter of the header is put in network byte order just before the send
  have hflush : st.flush = .ok { st with
      hdr := d.hdr
      net := { st.net with sent := st.net.sent ++ [d.bytes], attempts := st.net.attempts + 1 }
      exported := st.exported + UInt64.ofNat st.j
      j := 0
      numPackets := st.numPackets + 1 } := by
    simp only [V5Send.flush, Net.send, hfails, hf.take_offset]
    rfl
  have hwf : d.WellFormed env st.exported := by
    refine ⟨?_, ?_, ?_, ?_⟩
    · exact hf.length_flows ▸ Nat.pos_of_ne_zero hj
    · exact hf.length_flows ▸ h.j_le
    · simp only [d, hf.hdr_eq, hf.length_flows]
    · obtain ⟨r, hr⟩ : ∃ r, st.flows.head? = some r := by
        cases hflows : st.flows with
        | nil => exact absurd (hflows ▸ hf.length_flows).symm hj
        | cons r _ => exact ⟨r, rfl⟩
      simp only [d, hr, Option.map_some, hf.monitor r hr, hf.hdr_eq]
  refine ⟨d, _, hflush, rfl, ?_⟩
  refine { net_eq := ?_, numPackets_eq := ?_, exported_eq := ?_, numbered := ?_,
           filling := ?_, j_le := ?_, records_eq := ?_ }
  · simp [h.net_eq, Nat.add_assoc]
  · simp [h.numPackets_eq, Nat.add_assoc]
  · rw [nf5Records_append, nf5Records_singleton, List.length_append, UInt64.ofNat_add,
      ← UInt64.add_assoc, ← h.exported_eq, hf.length_flows]
  · exact h.numbered.concat (h.exported_eq ▸ hwf)
  · intro h0
    exact absurd rfl h0
  · exact Nat.zero_le _
  · rw [← h.records_eq]
    simp [pending, hj, d]

/-- Sending the packet being filled, whether or not `send` fails. -/
theorem Going.flush {env : V5Env} {st₀ st : V5Send} {rs : List Nf5Flow}
    (h : Going env st₀ rs st) (hj : st.j ≠ 0) :
    Ends (GaveUp env st₀ rs) (fun st' => st'.j = 0 ∧ Going env st₀ rs st') st.flush := by
  obtain ⟨ds, hrun, hdelivers⟩ := h
  by_cases hfails : st₀.net.sendFails (st₀.net.attempts + ds.length)
  · have hflush : ∃ st', st.flush = .error (.sendFailed st') ∧ st'.net.sent = st.net.sent := by
      have hfails' : st.net.sendFails st.net.attempts = true := by
        rw [hrun.net_eq]
        exact hfails
      simp [V5Send.flush, Net.send, hfails']
    obtain ⟨st', hflush, hsent⟩ := hflush
    rw [hflush]
    refine ⟨st', ds, rfl, ?_, hrun.numbered, ?_, hdelivers, hfails⟩
    · rw [hsent, hrun.net_eq]
    · exact hrun.records_eq ▸ List.prefix_append _ _
  · have hsend := Bool.eq_false_of_not_eq_true hfails
    obtain ⟨d, st', hflush, hj', hrun'⟩ := hrun.flush hj hsend
    rw [hflush]
    refine ⟨hj', ds ++ [d], hrun', fun k hk => ?_⟩
    rcases Nat.lt_succ_iff_lt_or_eq.mp (by simpa using hk) with hk | rfl
    · exact hdelivers k hk
    · exact hsend

/-- Starting a packet sends nothing. -/
theorem Run.start {env : V5Env} {st₀ st : V5Send} {ds : List Nf5Datagram} {rs : List Nf5Flow}
    (h : Run env st₀ ds rs st) (hj : st.j = 0) :
    Run env st₀ ds rs (st.start env) ∧ Filling env (fun _ => 0) (st.start env) := by
  refine ⟨⟨h.net_eq, h.numPackets_eq, h.exported_eq, h.numbered, fun h0 => absurd hj h0, h.j_le,
    ?_⟩, ⟨hj.symm, ?_, ?_, ?_⟩⟩
  · simpa [pending, hj, V5Send.start] using h.records_eq
  · simp [V5Send.start, hj]
  · simp [V5Send.start, hj, V5Env.header]
  · simp [V5Send.start]

theorem put_j (env : V5Env) (f : Flow) (st : V5Send) (d : Dir) :
    (put env f st d).j = st.j + if env.selects f d then 1 else 0 := by
  unfold put
  split <;> rfl

/-- Writing the record of a direction keeps the packet consistent. -/
theorem Run.put {env : V5Env} {st₀ st : V5Send} {ds : List Nf5Datagram} {rs : List Nf5Flow}
    {a : InAddr} {f : Flow} {d : Dir} (h : Run env st₀ ds rs st) (hf : Filling env a st)
    (hj : st.j < nf5MaxFlows) (ha : st.j = 0 → (env.record f d).emulatorMonitorAdr = a) :
    Run env st₀ ds (rs ++ if env.selects f d then [env.record f d] else []) (put env f st d) ∧
      Filling env a (put env f st d) := by
  by_cases hsel : env.selects f d
  · have hput : V5Send.put env f st d = { st with
        flows := st.flows ++ [env.record f d]
        offset := st.offset + 56
        j := st.j + 1
        hdr := { st.hdr with flows := st.hdr.flows + 1 } } := if_pos hsel
    have hfill : Filling env a (V5Send.put env f st d) := by
      rw [hput]
      refine ⟨?_, ?_, ?_, ?_⟩
      · simp [hf.length_flows]
      · simp only [hf.offset_eq]
        omega
      · simp [hf.hdr_eq, UInt16.ofNat_add]
      · -- the head of the packet is the new record only when it is the first one
        intro r hr
        cases hflows : st.flows with
        | nil =>
          obtain rfl : env.record f d = r := by simpa [hflows] using hr
          exact ha (by rw [← hf.length_flows, hflows, List.length_nil])
        | cons r' _ =>
          obtain rfl : r' = r := by simpa [hflows] using hr
          exact hf.monitor _ (by rw [hflows]; rfl)
    refine ⟨⟨?_, ?_, ?_, h.numbered, fun _ => ⟨a, hfill⟩, ?_, ?_⟩, hfill⟩
    · rw [hput]; exact h.net_eq
    · rw [hput]; exact h.numPackets_eq
    · rw [hput]; exact h.exported_eq
    · rw [hput]; exact hj
    · have hpend : st.pending = st.flows := by
        unfold pending
        split
        · exact (List.eq_nil_of_length_eq_zero (by rw [hf.length_flows]; assumption)).symm
        · rfl
      rw [hput, if_pos hsel, ← h.records_eq, hpend]
      simp [pending]
  · have hput : V5Send.put env f st d = st := if_neg hsel
    rw [hput, if_neg hsel, List.append_nil]
    exact ⟨h, hf⟩

/-- Room is made in the packet before a flow is looked at: one slot early, since a flow may have
two records. -/
theorem Going.makeRoom {env : V5Env} {st₀ st : V5Send} {rs : List Nf5Flow}
    (h : Going env st₀ rs st) :
    Ends (GaveUp env st₀ rs) (fun st' => st'.j + 2 ≤ nf5MaxFlows ∧ Going env st₀ rs st')
      st.makeRoom := by
  by_cases hj : st.j ≥ nf5MaxFlows - 1
  · have hpos : st.j ≠ 0 := Nat.ne_of_gt (Nat.lt_of_lt_of_le (by decide) hj)
    rw [V5Send.makeRoom, if_pos hj]
    apply (h.flush hpos).imp (fun _ he => he)
    rintro st' ⟨hj', hgoing⟩
    exact ⟨by rw [hj']; decide, hgoing⟩
  · rw [V5Send.makeRoom, if_neg hj]
    refine ⟨?_, h⟩
    simp only [nf5MaxFlows] at hj ⊢
    omega

/-- A packet is open for records when the loop looks at a flow. -/
theorem Run.open {env : V5Env} {st₀ st : V5Send} {ds : List Nf5Datagram} {rs : List Nf5Flow}
    (h : Run env st₀ ds rs st) :
    ∃ a, Run env st₀ ds rs (if st.j = 0 then st.start env else st) ∧
      Filling env a (if st.j = 0 then st.start env else st) ∧ (st.j = 0 → a = fun _ => 0) := by
  by_cases hj : st.j = 0
  · rw [if_pos hj]
    obtain ⟨hrun, hfill⟩ := h.start hj
    exact ⟨_, hrun, hfill, fun _ => rfl⟩
  · rw [if_neg hj]
    obtain ⟨a, ha⟩ := h.filling hj
    exact ⟨a, h, ha, fun h0 => absurd h0 hj⟩

/-- The first flow of a packet puts its monitor into the header. -/
theorem Run.nameMonitor {env : V5Env} {st₀ st : V5Send} {ds : List Nf5Datagram}
    {rs : List Nf5Flow} {a : InAddr} {f : Flow} (h : Run env st₀ ds rs st)
    (hf : Filling env a st) (ha : st.j = 0 → a = fun _ => 0) :
    ∃ b, Run env st₀ ds rs (nameMonitor env f st) ∧ Filling env b (nameMonitor env f st) ∧
      (nameMonitor env f st).j = st.j ∧
      (st.j = 0 → ∀ d, (env.record f d).emulatorMonitorAdr = b) := by
  -- the header is written in emulator mode only, and only before the first record
  by_cases hc : st.j = 0 ∧ env.usingEmulator
  · have hname : V5Send.nameMonitor env f st =
        { st with hdr := { st.hdr with emulatorMonitorAdr := f.selectedMonitor } } := if_pos hc
    obtain ⟨hj, hem⟩ := hc
    rw [hname]
    refine ⟨f.selectedMonitor, ⟨h.net_eq, h.numPackets_eq, h.exported_eq, h.numbered,
      fun h0 => absurd hj h0, h.j_le, h.records_eq⟩, ⟨hf.length_flows, hf.offset_eq, ?_, ?_⟩, rfl, ?_⟩
    · simp [hf.hdr_eq]
    · intro r hr
      have hnil : st.flows = [] := List.eq_nil_of_length_eq_zero (hf.length_flows.trans hj)
      simp [hnil] at hr
    · intro _ d
      simp [V5Env.record, hem]
  · have hname : V5Send.nameMonitor env f st = st := if_neg hc
    rw [hname]
    refine ⟨a, h, hf, rfl, fun hj d => ?_⟩
    have hem : env.usingEmulator = false := by
      simpa using fun hem => hc ⟨hj, hem⟩
    simp [V5Env.record, hem, ha hj]

/-- One flow: its records are appended, in at most one more datagram. -/
theorem step_ends {env : V5Env} {st₀ st : V5Send} {rs : List Nf5Flow} (f : Flow)
    (h : Going env st₀ rs st)
    (hidx : env.usingEmulator → f.selectedMonitorIndex.toNat < maxEmulators) :
    Ends (GaveUp env st₀ rs) (Going env st₀ (rs ++ env.records f)) (step env st f) := by
  apply h.makeRoom.bind
  rintro st₁ ⟨hj₁, ds₁, hrun₁, hdelivers⟩
  obtain ⟨a, hrun₂, hfill₂, ha⟩ := hrun₁.open
  have hj₂ : (if st₁.j = 0 then st₁.start env else st₁).j = st₁.j := by
    split <;> rfl
  generalize (if st₁.j = 0 then st₁.start env else st₁) = st₂ at hrun₂ hfill₂ hj₂ ⊢
  have hidx' : ¬(env.usingEmulator ∧ maxEmulators ≤ f.selectedMonitorIndex.toNat) :=
    fun hc => absurd (hidx hc.1) (Nat.not_lt.mpr hc.2)
  by_cases haf : f.af = afInet
  · obtain ⟨b, hrun₃, hfill₃, hj₃, hb⟩ := hrun₂.nameMonitor (f := f) hfill₂ (by rwa [hj₂])
    obtain ⟨hrun₄, hfill₄⟩ := hrun₃.put (f := f) (d := 0) hfill₃ (by omega)
      (fun h0 => hb (by omega) 0)
    -- the second record meets an empty packet only when there was no first one
    obtain ⟨hrun₅, -⟩ := hrun₄.put (f := f) (d := 1) hfill₄
      (by rw [put_j, hj₃, hj₂]; split <;> omega)
      (fun h0 => hb (by rw [put_j, hj₃] at h0; omega) 1)
    have hrecords : env.records f = (if env.selects f 0 then [env.record f 0] else []) ++
        (if env.selects f 1 then [env.record f 1] else []) := by
      simp only [V5Env.records, haf, if_true, List.filter_cons, List.filter_nil]
      split <;> split <;> rfl
    rw [if_neg (not_not.mpr haf), if_neg hidx', hrecords, ← List.append_assoc]
    exact ⟨ds₁, hrun₅, hdelivers⟩
  · rw [if_pos haf]
    exact ⟨ds₁, by simpa [V5Env.records, haf] using hrun₂, hdelivers⟩

end V5Send

/-- The loop of `send_netflow_v5` and the datagram for what is left over, whichever `send` calls
fail. -/
theorem sendLoopV5_ends (env : V5Env) (flows : List Flow) (st₀ : V5Send) (hj : st₀.j = 0)
    (hidx : ∀ f ∈ flows, env.usingEmulator → f.selectedMonitorIndex.toNat < maxEmulators) :
    Ends (V5Send.GaveUp env st₀ (flows.flatMap env.records))
      (fun st => st.j = 0 ∧ V5Send.Going env st₀ (flows.flatMap env.records) st)
      (sendLoopV5 env flows st₀) := by
  have hstart : V5Send.Run env st₀ [] [] st₀ :=
    ⟨by simp, by simp, by simp [nf5Records], .nil _ _, fun h0 => absurd hj h0, by simp [hj],
      by simp [V5Send.pending, hj, nf5Records]⟩
  have hloop : Ends (V5Send.GaveUp env st₀ (flows.flatMap env.records))
      (V5Send.Going env st₀ (flows.flatMap env.records)) (flows.foldlM (V5Send.step env) st₀) := by
    refine Ends.foldlM (I := fun pre => V5Send.Going env st₀ (pre.flatMap env.records)) ?_
      ⟨[], hstart, fun k hk => absurd hk (Nat.not_lt_zero k)⟩
    rintro pre f post st rfl hgoing
    refine (V5Send.step_ends f hgoing (hidx f (by simp))).imp (fun _ he => he.mono ?_)
      fun st' hst' => ?_
    · rw [List.flatMap_append]
      exact List.prefix_append _ _
    · simpa using hst'
  refine hloop.bind fun st hgoing => ?_
  by_cases hleft : st.j = 0
  · rw [if_neg (not_not.mpr hleft)]
    exact ⟨hleft, hgoing⟩
  · rw [if_pos hleft]
    exact hgoing.flush hleft

/-- The whole of `send_netflow_v5` after the first lines: `ds` are the datagrams it sends. -/
theorem sendLoopV5_spec (env : V5Env) (st₀ : V5Send) {flows : List Flow} (hj : st₀.j = 0)
    (hsend : ∀ k, st₀.net.sendFails k = false)
    (hidx : ∀ f ∈ flows, f.selectedMonitorIndex.toNat < maxEmulators) :
    ∃ ds st, sendLoopV5 env flows st₀ = .ok st ∧ st.j = 0 ∧
      V5Send.Run env st₀ ds (flows.flatMap env.records) st := by
  rcases (sendLoopV5_ends env flows st₀ hj fun f hf _ => hidx f hf).cases with
    ⟨_, -, _, ds, -, -, -, -, -, hfails⟩ | ⟨st, hloop, hj', ds, hrun, -⟩
  · rw [hsend] at hfails
    cases hfails
  · exact ⟨ds, st, hloop, hj', hrun⟩

/-- `send_netflow_v5` when every `send` succeeds. -/
theorem sendNetflowV5_spec (usingEmulator : Bool) (now boot : Timeval) (inOut : ℤ)
    (flows : List Flow) (exported : UInt64) (ex : Exporter)
    (hsend : ∀ k, ex.net.sendFails k = false)
    (hidx : ∀ f ∈ flows, f.selectedMonitorIndex.toNat < maxEmulators) :
    ∃ ds : List Nf5Datagram,
      sendNetflowV5 usingEmulator now flows exported boot inOut ex =
        .ok ((ds.length : ℤ), exported + UInt64.ofNat (nf5Records ds).length, { ex with
          net := { ex.net with
            sent := ex.net.sent ++ ds.map Nf5Datagram.bytes
            attempts := ex.net.attempts + ds.length } }) ∧
      Numbered ⟨usingEmulator, now, boot, inOut⟩ exported ds ∧
      nf5Records ds = flows.flatMap (V5Env.records ⟨usingEmulator, now, boot, inOut⟩) := by
  obtain ⟨ds, st, hloop, hj, hrun⟩ := sendLoopV5_spec ⟨usingEmulator, now, boot, inOut⟩
    { exported := exported, net := ex.net } rfl hsend hidx
  refine ⟨ds, ?_, hrun.numbered, ?_⟩
  · unfold sendNetflowV5
    rw [hloop]
    simp [hrun.net_eq, hrun.numPackets_eq, hrun.exported_eq]
  · simpa [V5Send.pending, hj] using hrun.records_eq

end Softflowd
