import NetworkMonitoring.Softflowd.ExpiryScan
import NetworkMonitoring.Softflowd.MonitorTables
import NetworkMonitoring.Softflowd.NetFlow5
import NetworkMonitoring.Softflowd.Runs

/-!
# softflowd — when the monitor tables overflow

The tables have room for 50 monitors, and nothing checks that there are no more. `add_monitor`
counts a monitor again with every message of an existing flow whose first part is no address, so a
run is safe when the addresses its messages name, and the messages that name none, are at most 50.

`MonitorInv V k s` is the invariant of such a run: `V` are the addresses the messages of the whole
run name and `k` is the number of messages so far that name none.

## Main results

* `monitorTables_bounded`: under that condition no access of the run, or of an expiry scan after
  it, is outside a table;
* `monitorTables_overflow`: 51 monitors that report one flow each write behind the list.
-/

namespace Softflowd

open CText ErrorLoops FilledTable Function InetText OrderedSet

/-! ## Where the tables are accessed -/

/-- The loop over the parts of a message does not crash. -/
theorem partLoop_ne_fault (i n : ℕ) (rest : Text) (x : Fault) :
    partLoop i n rest ≠ .error (.fault x) := by
  induction n generalizing i rest with
  | zero =>
    unfold partLoop
    split
    · exact ok_ne_error
    · split <;> exact fun h => nomatch h
  | succ n ih =>
    unfold partLoop
    split
    · exact ok_ne_error
    · split
      · exact fun h => nomatch h
      · exact ih _ _

/-- A part of a message is found without the tables. -/
theorem getEmulatorPacketPart_ne_table (pkt : Text) (k : ℕ) :
    getEmulatorPacketPart pkt k ≠ .error (.fault .monitorTable) := by
  unfold getEmulatorPacketPart
  split
  · split
    · split <;> simp
    · split
      · simp
      · exact partLoop_ne_fault _ _ _ _
  · simp

/-- A string is copied without the tables. -/
theorem strcpy_ne_table (size : ℕ) (s : Text) : strcpy size s ≠ .error (.fault .monitorTable) := by
  unfold strcpy
  split <;> simp

/-- A part is copied without the tables. -/
theorem copyPart_ne_table (size : ℕ) (pkt : Text) (k : ℕ) :
    copyPart size pkt k ≠ .error (.fault .monitorTable) :=
  bind_ne_error (getEmulatorPacketPart_ne_table pkt k) fun _ _ => strcpy_ne_table _ _

/-- An address is read without the tables. -/
theorem addrPart_ne_table (pkt : Text) (k : ℕ) :
    addrPart pkt k ≠ .error (.fault .monitorTable) := by
  refine bind_ne_error (copyPart_ne_table 16 pkt k) fun em _ => ?_
  split <;> simp

/-- The protocol is read without the tables. -/
theorem emulatorProtocol_ne_table (tmpPacket : Text) (u : Uninit) :
    emulatorProtocol tmpPacket u ≠ .error (.fault .monitorTable) := by
  refine bind_ne_error (copyPart_ne_table _ _ _) fun tmp _ => ?_
  split
  · refine bind_ne_error (copyPart_ne_table _ _ _) fun isfrag _ => ?_
    dsimp only
    split
    · refine bind_ne_error (copyPart_ne_table _ _ _) fun off _ => ?_
      exact ok_ne_error
    · exact ok_ne_error
  · split
    · exact ok_ne_error
    · split <;> exact ok_ne_error

/-- The transport header is read without the tables. -/
theorem emulatorTransportToFlowrec_ne_table (flow : Flow) (pkt : Text) (protocol : UInt8)
    (ndx : Dir) (u : Uninit) :
    emulatorTransportToFlowrec flow pkt protocol ndx u ≠ .error (.fault .monitorTable) := by
  refine bind_ne_error (strcpy_ne_table _ _) fun tmpPacket _ => ?_
  refine bind_ne_error (copyPart_ne_table _ _ _) fun sport _ => ?_
  refine bind_ne_error (copyPart_ne_table _ _ _) fun dport _ => ?_
  split
  · refine bind_ne_error (copyPart_ne_table _ _ _) fun flags _ => ?_
    exact ok_ne_error
  · split
    · exact ok_ne_error
    · split <;> exact ok_ne_error

/-- Reading a message does not touch the tables. -/
theorem EmulatorCall.record_ne_table (c : EmulatorCall) :
    c.record ≠ .error (.fault .monitorTable) := by
  unfold EmulatorCall.record
  split
  · refine bind_ne_error (strcpy_ne_table _ _) fun tmpPacket _ => ?_
    refine bind_ne_error (addrPart_ne_table _ _) fun src _ => ?_
    refine bind_ne_error (addrPart_ne_table _ _) fun dst _ => ?_
    refine bind_ne_error (emulatorProtocol_ne_table _ _) fun proto _ => ?_
    refine bind_ne_error (copyPart_ne_table _ _ _) fun asSrc _ => ?_
    refine bind_ne_error (copyPart_ne_table _ _ _) fun asDst _ => ?_
    dsimp only
    split
    · exact ok_ne_error
    · exact bind_ne_error (emulatorTransportToFlowrec_ne_table _ _ _ _ _) fun flow _ h => nomatch h
  · exact fun h => nomatch h

/-- An expiry is updated without the tables. -/
theorem flowUpdateExpiry_ne_table (ft : FlowTrack) (p : ℕ) :
    ft.flowUpdateExpiry p ≠ .error .monitorTable := by
  unfold FlowTrack.flowUpdateExpiry
  split
  · simp
  · split <;> simp

/-- A fault of the parser that ends a call is not one of the tables. -/
theorem error_ne_table {α β : Type} {x : Except Stop α} {y : Fault}
    (hx : x ≠ .error (.fault .monitorTable)) (hy : x = .error (.fault y)) :
    (.error y : Except Fault β) ≠ .error .monitorTable := by
  intro h
  rw [Except.error.inj h] at hy
  exact hx hy

/-- A flow is created inside the tables when its monitor is added there. -/
theorem createEmulatorFlow_ne_table {ms : Monitors} {ft : FlowTrack} {tmp : Flow} {ndx : Dir}
    {c : EmulatorCall}
    (hadd : ∀ em, copyPart 16 c.pkt 0 = .ok em → addMonitor ms em ≠ .error .monitorTable) :
    createEmulatorFlow ms ft tmp ndx c ≠ .error .monitorTable := by
  unfold createEmulatorFlow
  split
  · simp
  · split
    · rename_i x hpart
      exact error_ne_table (copyPart_ne_table _ _ _) hpart
    · simp
    · rename_i em hpart
      split
      · simp
      · exact bind_ne_error (hadd em hpart) fun ms _ h => nomatch h

/-- A flow is updated inside the tables when its monitor is added and counted there. -/
theorem updateEmulatorFlow_ne_table {ms : Monitors} {ft : FlowTrack} {flow tmp : Flow}
    {ndx : Dir} {c : EmulatorCall}
    (hadd : ∀ em, copyPart 16 c.pkt 0 = .ok em → addMonitor ms em ≠ .error .monitorTable)
    (hcount : ∀ a, c.monitor = some a → countMonitor ndx a tmp flow ≠ .error .monitorTable) :
    updateEmulatorFlow ms ft flow tmp ndx c ≠ .error .monitorTable := by
  unfold updateEmulatorFlow
  split
  · rename_i x hpart
    exact error_ne_table (copyPart_ne_table _ _ _) hpart
  · simp
  · rename_i em hpart
    refine bind_ne_error (hadd em hpart) fun ms _ => ?_
    split
    · exact ok_ne_error
    · rename_i a haddr
      refine bind_ne_error (hcount a ((EmulatorCall.monitor_eq hpart).trans haddr)) fun f _ => ?_
      dsimp only
      split
      · rename_i x hlast
        exact error_ne_table (getEmulatorPacketPart_ne_table _ _) hlast
      · exact ok_ne_error
      · split
        · simp
        · exact bind_ne_error (flowUpdateExpiry_ne_table _ _) fun ft _ h => nomatch h

/-- `process_emulator_packet` accesses the tables in `add_monitor`, and where it files the packet
under its monitor. -/
theorem processEmulatorPacket_ne_table {s : Tracker} {c : EmulatorCall}
    (hadd : ∀ em, copyPart 16 c.pkt 0 = .ok em → addMonitor s.monitors em ≠ .error .monitorTable)
    (hcount : ∀ ndx a tmp, ∀ f ∈ s.ft.flows, c.monitor = some a →
      countMonitor ndx a tmp f ≠ .error .monitorTable) :
    processEmulatorPacket s c ≠ .error .monitorTable := by
  -- only the last two branches reach the tables
  unfold processEmulatorPacket
  split
  · simp
  · split
    · rename_i x hrec
      exact error_ne_table c.record_ne_table hrec
    · simp
    · rename_i tmp frag ndx hrec
      unfold fileEmulatorRecord
      split
      · exact createEmulatorFlow_ne_table hadd
      · rename_i flow hfind
        have hflow : flow ∈ s.ft.flows := by
          rw [← s.ft.flows_counted frag]
          exact (find_eq_some hfind).1
        split
        · simp
        · split
          · exact updateEmulatorFlow_ne_table hadd fun a ha => hcount ndx a _ flow hflow ha
          · simp

/-! ## Runs of messages -/

/-- The messages `cs`, one after another, whatever `process_emulator_packet` returns. -/
def runMessages (s : Tracker) (cs : List EmulatorCall) : Except Fault Tracker :=
  cs.foldlM (fun s c => do return (← processEmulatorPacket s c).2) s

/-- The different monitors the messages of a run name. -/
def namedMonitors (cs : List EmulatorCall) : List InAddr :=
  (cs.filterMap EmulatorCall.monitor).dedup

/-- The number of messages whose first part is not an address. -/
def namelessMessages (cs : List EmulatorCall) : ℕ := cs.countP fun c => c.monitor = none

/-- The monitor tables in a run that names the monitors `V`, after `k` messages that name none. -/
structure MonitorInv (V : List InAddr) (k : ℕ) (s : Tracker) : Prop where
  flows_ok : ∀ f ∈ s.ft.flows, f.MonitorsOk V
  nbr_le : ∃ R : List InAddr, R.Nodup ∧ R ⊆ V ∧ R ⊆ s.monitors.registered ∧
    s.monitors.nbrMonitors.toNat ≤ R.length + k

/-- A list without duplicates in `V` that misses an element of `V` is shorter. -/
theorem length_lt_of_subset {R V : List InAddr} {a : InAddr} (hnd : R.Nodup) (hsub : R ⊆ V)
    (ha : a ∈ V) (hnew : a ∉ R) : R.length < V.length := by
  have hcons : (a :: R).length ≤ V.length :=
    List.Subperm.length_le ((List.subperm_of_subset (List.nodup_cons.mpr ⟨hnew, hnd⟩))
      (List.cons_subset.mpr ⟨ha, hsub⟩))
  exact hcons

/-- How many messages that name no monitor one call adds. -/
def EmulatorCall.nameless (c : EmulatorCall) : ℕ := if c.monitor = none then 1 else 0

/-- `add_monitor` stays within the list. -/
theorem MonitorInv.addMonitor {V : List InAddr} {k : ℕ} {s : Tracker} {c : EmulatorCall}
    {em : Text} (h : MonitorInv V k s) (hV : ∀ a, c.monitor = some a → a ∈ V)
    (hk : V.length + (k + c.nameless) ≤ maxEmulators) (hpart : copyPart 16 c.pkt 0 = .ok em) :
    addMonitor s.monitors em ≠ .error .monitorTable ∧
      ∀ ms, addMonitor s.monitors em = .ok ms → ∃ R : List InAddr, R.Nodup ∧ R ⊆ V ∧
        R ⊆ ms.registered ∧ ms.nbrMonitors.toNat ≤ R.length + (k + c.nameless) := by
  -- `R` are the registered monitors with an address; each other place was taken by a message
  -- without one
  obtain ⟨R, hnd, hsub, hreg, hnbr⟩ := h.nbr_le
  have hmon := EmulatorCall.monitor_eq hpart
  have hle : R.length ≤ V.length := List.Subperm.length_le (List.subperm_of_subset hnd hsub)
  constructor
  · intro herror
    obtain ⟨hfull, hnew⟩ := addMonitor_error herror
    cases haddr : inetPton em with
    | none =>
      have hone : c.nameless = 1 := by simp [EmulatorCall.nameless, hmon, haddr]
      omega
    | some a =>
      have hlt := length_lt_of_subset hnd hsub (hV a (hmon.trans haddr))
        fun ha => hnew a haddr (hreg ha)
      omega
  · intro ms hms
    rcases addMonitor_cases hms with ⟨rfl, -⟩ | ⟨hnone, hsucc, hgrow⟩ | ⟨a, ha, hnew, hsucc, -, happ⟩
    · exact ⟨R, hnd, hsub, hreg, by omega⟩
    · have hone : c.nameless = 1 := by simp [EmulatorCall.nameless, hmon, hnone]
      exact ⟨R, hnd, hsub, fun a ha => hgrow (hreg ha), by omega⟩
    · refine ⟨a :: R, List.nodup_cons.mpr ⟨fun ha => hnew (hreg ha), hnd⟩,
        List.cons_subset.mpr ⟨hV a (hmon.trans ha), hsub⟩, ?_, ?_⟩
      · rw [happ]
        refine List.cons_subset.mpr ⟨List.mem_append_right _ List.mem_cons_self, fun b hb => ?_⟩
        exact List.mem_append_left _ (hreg hb)
      · simp only [List.length_cons]
        omega

/-- What a message can do to the list of monitors. -/
theorem EmulatorStep.monitors_cases {s s' : Tracker} {c : EmulatorCall} {r : PpResult}
    (hstep : EmulatorStep s c r s') : s'.monitors = s.monitors ∨
      ∃ em, copyPart 16 c.pkt 0 = .ok em ∧ Softflowd.addMonitor s.monitors em = .ok s'.monitors := by
  cases hstep with
  | created _ _ _ hpart _ hadd => exact .inr ⟨_, hpart, hadd⟩
  | updatedBadMonitor _ _ hpart _ hadd => exact .inr ⟨_, hpart, hadd⟩
  | updatedBadMark _ _ hpart _ hadd _ => exact .inr ⟨_, hpart, hadd⟩
  | updated _ _ _ _ hpart _ hadd _ _ _ _ => exact .inr ⟨_, hpart, hadd⟩
  | _ => exact .inl rfl

/-- One message. -/
theorem MonitorInv.step {V : List InAddr} {k : ℕ} {s : Tracker} {c : EmulatorCall}
    (h : MonitorInv V k s) (hV : ∀ a, c.monitor = some a → a ∈ V)
    (hk : V.length + (k + c.nameless) ≤ maxEmulators) :
    processEmulatorPacket s c ≠ .error .monitorTable ∧
      ∀ r s', processEmulatorPacket s c = .ok (r, s') → MonitorInv V (k + c.nameless) s' := by
  constructor
  · apply processEmulatorPacket_ne_table (fun em hpart => (h.addMonitor hV hk hpart).1)
    intro ndx a tmp f hf ha herror
    obtain ⟨hfull, hnew⟩ := countMonitor_error herror
    have hok := h.flows_ok f hf
    -- a full table would hold as many different monitors as the run names, and `a` besides
    have hlt := length_lt_of_subset (hok.nodup ndx) (hok.subset ndx) (hV a ha) hnew
    rw [Flow.length_slots (hok.number_le ndx)] at hlt
    omega
  · intro r s' hcall
    have hstep := processEmulatorPacket_step hcall
    refine ⟨hstep.monitorsOk hV h.flows_ok, ?_⟩
    rcases hstep.monitors_cases with heq | ⟨em, hpart, hadd⟩
    · obtain ⟨R, hnd, hsub, hreg, hnbr⟩ := h.nbr_le
      rw [heq]
      exact ⟨R, hnd, hsub, hreg, by omega⟩
    · exact (h.addMonitor hV hk hpart).2 _ hadd

/-- The first message and the others. -/
theorem namelessMessages_cons (c : EmulatorCall) (cs : List EmulatorCall) :
    namelessMessages (c :: cs) = c.nameless + namelessMessages cs := by
  unfold namelessMessages EmulatorCall.nameless
  rw [List.countP_cons, Nat.add_comm]
  simp only [decide_eq_true_eq]

/-- A run of messages. -/
theorem MonitorInv.run {V : List InAddr} {k : ℕ} {s : Tracker} {cs : List EmulatorCall}
    (h : MonitorInv V k s) (hV : ∀ c ∈ cs, ∀ a, c.monitor = some a → a ∈ V)
    (hk : V.length + (k + namelessMessages cs) ≤ maxEmulators) :
    runMessages s cs ≠ .error .monitorTable ∧
      ∀ t, runMessages s cs = .ok t → MonitorInv V (k + namelessMessages cs) t := by
  -- each message may use up one of the places that `hk` leaves
  induction cs generalizing s k with
  | nil =>
    refine ⟨ok_ne_error, fun t ht => ?_⟩
    exact (Except.ok.inj ht) ▸ h
  | cons c cs ih =>
    rw [namelessMessages_cons] at hk ⊢
    obtain ⟨hne, hok⟩ := h.step (hV c List.mem_cons_self) (by omega)
    have hcs : ∀ c' ∈ cs, ∀ a, c'.monitor = some a → a ∈ V := fun c' hc' =>
      hV c' (List.mem_cons_of_mem c hc')
    unfold runMessages at ih ⊢
    rw [List.foldlM_cons]
    refine ⟨bind_ne_error (bind_ne_error hne fun _ _ hpure => nomatch hpure) ?_, ?_⟩
    · intro s₁ hs₁
      obtain ⟨⟨r, s₂⟩, hcall, hpure⟩ := bind_eq_ok.mp hs₁
      obtain rfl : s₂ = s₁ := Except.ok.inj hpure
      exact (ih (hok r s₂ hcall) hcs (by omega)).1
    · intro t ht
      obtain ⟨s₁, hs₁, hrun⟩ := bind_eq_ok.mp ht
      obtain ⟨⟨r, s₂⟩, hcall, hpure⟩ := bind_eq_ok.mp hs₁
      obtain rfl : s₂ = s₁ := Except.ok.inj hpure
      rw [← Nat.add_assoc]
      exact (ih (hok r s₂ hcall) hcs (by omega)).2 t hrun

/-! ## The expiry scan and the exporters -/

/-- A send function that accesses the monitor tables, if at all, through `selected_monitor_index`
and in emulator mode. -/
def NetflowSendFunc.IndexSafe (usingEmulator : Bool) (func : NetflowSendFunc) : Prop :=
  ∀ flows exported boot inOut ex,
    (usingEmulator = true → ∀ f ∈ flows, f.selectedMonitorIndex.toNat < maxEmulators) →
    func flows exported boot inOut ex ≠ .error .monitorTable

/-- Sending a datagram does not read the tables. -/
theorem V5Send.flush_ne_fault (st : V5Send) : st.flush ≠ .error .fault := by
  unfold V5Send.flush
  dsimp only
  split <;> simp

/-- A flow with a slot in the tables is exported. -/
theorem V5Send.step_ne_fault {env : V5Env} {st : V5Send} {f : Flow}
    (h : env.usingEmulator = true → f.selectedMonitorIndex.toNat < maxEmulators) :
    st.step env f ≠ .error .fault := by
  refine bind_ne_error ?_ fun st' _ => ?_
  · unfold V5Send.makeRoom
    split
    · exact st.flush_ne_fault
    · simp
  · dsimp only
    split
    · exact ok_ne_error
    · split
      · rename_i hbad
        exact absurd (h hbad.1) (Nat.not_lt.mpr hbad.2)
      · exact ok_ne_error

/-- `send_netflow_v5` accesses the tables through `selected_monitor_index`. -/
theorem sendNetflowV5_indexSafe (usingEmulator : Bool) (now : Timeval) :
    NetflowSendFunc.IndexSafe usingEmulator (sendNetflowV5 usingEmulator now) := by
  intro flows exported boot inOut ex hidx
  have hloop : sendLoopV5 ⟨usingEmulator, now, boot, inOut⟩ flows
      { exported := exported, net := ex.net } ≠ .error .fault := by
    refine bind_ne_error ?_ fun st _ => ?_
    · refine (foldlM_ne_error (I := fun _ => True) (fun st f hf _ => ⟨?_, fun _ _ => trivial⟩)
        trivial).1
      exact V5Send.step_ne_fault fun hu => hidx hu f hf
    · split
      · exact st.flush_ne_fault
      · exact ok_ne_error
  unfold sendNetflowV5
  split
  · rename_i hfault
    exact absurd hfault hloop
  · simp
  · simp

/-- The flows the scan takes out are flows of the table. -/
theorem scanExpired_ne_table (now : Timeval) (ex : ExpireMode) (reallocOk : Expiry → Bool)
    {ft : FlowTrack} {V : List InAddr} (h : ∀ f ∈ ft.flows, f.MonitorsOk V) :
    scanExpired now ex reallocOk ft ≠ .error .monitorTable ∧
      ∀ st, scanExpired now ex reallocOk ft = .ok st → ∀ f ∈ st.2, f.MonitorsOk V := by
  -- the flows of the table and the flows taken out so far stay in order
  let I : FlowTrack × List Flow → Prop := fun st =>
    (∀ f ∈ st.1.flows, f.MonitorsOk V) ∧ ∀ f ∈ st.2, f.MonitorsOk V
  have hstep : ∀ st, ∀ e ∈ ft.expiries, I st → scanStep now ex reallocOk st e ≠ .error .monitorTable ∧
      ∀ st', scanStep now ex reallocOk st e = .ok st' → I st' := by
    intro st e _ hI
    refine ⟨fun hfault => absurd (scanStep_eq_error hfault) (by decide), fun st' hst' => ?_⟩
    obtain rfl | ⟨flow, hat, rfl⟩ := scanStep_cases hst'
    · exact hI
    · have hflow : flow.retire.MonitorsOk V :=
        (hI.1 flow (FlowTrack.mem_of_flowAt hat).1).congr rfl
      refine ⟨fun f hf => hI.1 f (List.mem_filter.mp hf).1, ?_⟩
      dsimp only
      split
      · intro f hf
        rcases List.mem_append.mp hf with hf | hf
        · exact hI.2 f hf
        · exact List.mem_singleton.mp hf ▸ hflow
      · exact hI.2
  have hloop := foldlM_ne_error hstep (s := (ft, [])) ⟨h, fun f hf => nomatch hf⟩
  exact ⟨hloop.1, fun st hst => (hloop.2 st hst).2⟩

/-- One monitor and one direction. -/
theorem exportDirection_ne_table {func : NetflowSendFunc} {a : InAddr} {st : ExportState} {d : Dir}
    {V : List InAddr} (hfunc : func.IndexSafe true) (h : ∀ f ∈ st.expired, f.MonitorsOk V) :
    exportDirection func a st d ≠ .error .monitorTable ∧
      ∀ st', exportDirection func a st d = .ok st' → ∀ f ∈ st'.expired, f.MonitorsOk V := by
  have hmarks : st.expired.mapM (markFlow d a) = .ok (st.expired.map (marked d a)) :=
    mapM_eq_ok fun f hf => markFlow_eq (h f hf) d a
  constructor
  · refine bind_ne_error (by simp [hmarks]) fun marks hm => ?_
    obtain rfl := Except.ok.inj (hmarks.symm.trans hm)
    refine bind_ne_error (hfunc _ _ _ _ _ fun _ f hf => ?_) fun _ _ h => nomatch h
    obtain ⟨⟨f, b⟩, hmem, rfl⟩ := List.mem_map.mp hf
    obtain ⟨hmem, hb⟩ := List.mem_filter.mp hmem
    obtain ⟨f₀, -, hf₀⟩ := List.mem_map.mp hmem
    have hsel := selectedMonitorIndex_marked (d := d) (a := a) (f := f₀) (by rw [hf₀]; exact hb)
    rwa [hf₀] at hsel
  · intro st' hst' f hf
    obtain ⟨marks, hm, hst'⟩ := bind_eq_ok.mp hst'
    obtain rfl := Except.ok.inj (hmarks.symm.trans hm)
    obtain ⟨⟨r, exported, exporter⟩, -, hst'⟩ := bind_eq_ok.mp hst'
    obtain rfl := Except.ok.inj hst'
    obtain ⟨x, hx, rfl⟩ := List.mem_map.mp hf
    obtain ⟨f₀, hf₀, rfl⟩ := List.mem_map.mp hx
    exact (h f₀ hf₀).congr (monitorTables_marked d a f₀)

/-- `check_expired` stays within the tables. -/
theorem checkExpired_ne_table {c : ExpiryCall} {s : Daemon} {V : List InAddr}
    (hfunc : ∀ func, c.target = some func → func.IndexSafe c.usingEmulator)
    (hflows : ∀ f ∈ s.tracker.ft.flows, f.MonitorsOk V)
    (hnbr : s.tracker.monitors.nbrMonitors.toNat ≤ maxEmulators) :
    checkExpired c s ≠ .error .monitorTable := by
  obtain ⟨hscan, hexpired⟩ := scanExpired_ne_table c.now c.ex c.reallocOk hflows
  refine bind_ne_error hscan fun st hst => ?_
  dsimp only
  split
  · exact ok_ne_error
  · refine bind_ne_error ?_ fun _ _ h => nomatch h
    unfold exportExpired
    split
    · exact ok_ne_error
    · rename_i func htarget
      have hsafe := hfunc func htarget
      split
      -- in emulator mode the loop stops at `nbr_monitors`, which is at most 50
      · rename_i hemulator
        rw [hemulator] at hsafe
        refine (foldlM_ne_error (I := fun st => ∀ f ∈ st.expired, f.MonitorsOk V) ?_
          (hexpired st hst)).1
        intro st m hm hI
        have hm50 : m < maxEmulators := Nat.lt_of_lt_of_le (List.mem_range.mp hm) hnbr
        unfold exportMonitor
        rw [dif_pos hm50]
        have h₀ := exportDirection_ne_table (a := s.tracker.monitors.adrs ⟨m, hm50⟩) (d := 0) hsafe hI
        constructor
        · exact bind_ne_error h₀.1 fun st₁ hst₁ => (exportDirection_ne_table hsafe (h₀.2 st₁ hst₁)).1
        · intro st₂ hst₂
          obtain ⟨st₁, hst₁, hst₂⟩ := bind_eq_ok.mp hst₂
          exact (exportDirection_ne_table hsafe (h₀.2 st₁ hst₁)).2 st₂ hst₂
      · rename_i hemulator
        refine bind_ne_error (hsafe _ _ _ _ _ fun hu => absurd hu hemulator) ?_
        exact fun _ _ h => nomatch h

/-! ## The tables of a run -/

/-- **Monitor tables.** While the monitors the messages of a run name, and the messages that name
none, are at most 50, no message makes the program access a monitor table outside its bounds, the
three counters stay at 50 or below, and an expiry scan after the run stays within the tables. -/
theorem monitorTables_bounded {s : Tracker} {cs : List EmulatorCall} (hs : s.Empty)
    (hcs : (namedMonitors cs).length + namelessMessages cs ≤ maxEmulators) :
    runMessages s cs ≠ .error .monitorTable ∧
    (∀ usingEmulator now,
      NetflowSendFunc.IndexSafe usingEmulator (sendNetflowV5 usingEmulator now)) ∧
    ∀ t, runMessages s cs = .ok t →
      t.monitors.nbrMonitors.toNat ≤ maxEmulators ∧
      (∀ f ∈ t.ft.flows, ∀ d, (f.numberOfMonitors d).toNat ≤ maxEmulators) ∧
      ∀ c ex, (∀ func, c.target = some func → func.IndexSafe c.usingEmulator) →
        checkExpired c ⟨t, ex⟩ ≠ .error .monitorTable := by
  -- an empty program has registered no monitor
  have hinit : MonitorInv (namedMonitors cs) 0 s := by
    constructor
    · rw [hs.flows_eq]
      exact fun f hf => nomatch hf
    · refine ⟨[], List.nodup_nil, List.nil_subset _, List.nil_subset _, ?_⟩
      rw [hs.nbrMonitors_eq]
      exact Nat.le_refl 0
  have hnamed : ∀ c ∈ cs, ∀ a, c.monitor = some a → a ∈ namedMonitors cs := fun c hc a ha =>
    List.mem_dedup.mpr (List.mem_filterMap.mpr ⟨c, hc, ha⟩)
  obtain ⟨hne, hok⟩ := hinit.run hnamed (by simpa using hcs)
  refine ⟨hne, sendNetflowV5_indexSafe, fun t ht => ?_⟩
  have hinv := hok t ht
  have hnbr : t.monitors.nbrMonitors.toNat ≤ maxEmulators := by
    obtain ⟨R, hnd, hsub, -, hle⟩ := hinv.nbr_le
    have hR : R.length ≤ (namedMonitors cs).length :=
      List.Subperm.length_le (List.subperm_of_subset hnd hsub)
    omega
  exact ⟨hnbr, fun f hf => (hinv.flows_ok f hf).number_le, fun c ex hfunc =>
    checkExpired_ne_table hfunc hinv.flows_ok hnbr⟩

/-- The message with which the monitor 10.0.0.`k` reports a TCP packet from 1.2.3.4 to 5.6.7.8. -/
def reportCall (k : ℕ) : EmulatorCall where
  pkt := ascii "10.0.0." ++ decimal k ++ ascii "#1.2.3.4#5.6.7.8#100#1#2#80#443#1#2#TCP#0##A#0"
  len := 100
  received := ⟨1000, 0⟩

/-- The report of the 51st monitor is written behind the list of monitors. -/
theorem monitorTables_overflow :
    runMessages {} ((List.range 51).map reportCall) = .error .monitorTable := by
  have hcheck : (match runMessages {} ((List.range 51).map reportCall) with
      | .ok _ => false
      | .error x => x == .monitorTable) = true := by
    decide +kernel
  split at hcheck
  · cases hcheck
  · rename_i x hx
    rw [hx, eq_of_beq hcheck]

/-- Two monitors. -/
theorem monitorTables_bounded_two :
    ∃ t, runMessages {} ((List.range 2).map reportCall) = .ok t ∧
      t.monitors.nbrMonitors.toNat ≤ maxEmulators ∧
      ∀ now ex, checkExpired { target := some (sendNetflowV5 true now), usingEmulator := true } ⟨t, ex⟩ ≠
        .error .monitorTable := by
  have hcs : (namedMonitors ((List.range 2).map reportCall)).length +
      namelessMessages ((List.range 2).map reportCall) ≤ maxEmulators := by
    decide +kernel
  obtain ⟨hne, hsafe, hok⟩ := monitorTables_bounded (s := {}) ⟨rfl, rfl, rfl⟩ hcs
  have hcheck : (runMessages {} ((List.range 2).map reportCall)).toBool = true := by
    decide +kernel
  cases hrun : runMessages {} ((List.range 2).map reportCall) with
  | error x =>
    rw [hrun] at hcheck
    cases hcheck
  | ok t =>
    obtain ⟨hnbr, -, hexp⟩ := hok t hrun
    refine ⟨t, rfl, hnbr, fun now ex => hexp _ ex fun func hfunc => ?_⟩
    obtain rfl := Option.some.inj hfunc
    exact hsafe true now

end Softflowd
