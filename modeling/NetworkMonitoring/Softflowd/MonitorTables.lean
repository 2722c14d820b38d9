import NetworkMonitoring.Softflowd.EmulatorStep

/-!
# softflowd — the monitor tables

The global list of monitors and the two tables of every flow are filled from the front. This
module says what `add_monitor` and the two branches of `process_emulator_packet` do to them, and
keeps `Flow.MonitorsOk R` for every flow of a run: a table stays within its bounds, holds no
address twice, and holds only addresses of `R`.
-/

namespace Softflowd

open CText ErrorLoops FilledTable Function InetText OrderedSet

/-- The monitors in the global list. -/
def Monitors.registered (ms : Monitors) : List InAddr := filled ms.adrs ms.nbrMonitors.toNat

/-- The monitors that have reported packets of direction `d` of a flow. -/
def Flow.slots (f : Flow) (d : Dir) : List InAddr :=
  filled (f.emulatorMonitorAdr d) (f.numberOfMonitors d).toNat

/-! ## The global list -/

/-- The ways `add_monitor` can return. -/
theorem addMonitor_cases {ms ms' : Monitors} {ip : Text} (h : addMonitor ms ip = .ok ms') :
    (ms' = ms ∧ ∃ a ∈ ms.registered, inetNtoa a = ip) ∨
    (inetPton ip = none ∧ ms'.nbrMonitors.toNat = ms.nbrMonitors.toNat + 1 ∧
      ms.registered ⊆ ms'.registered) ∨
    (∃ a, inetPton ip = some a ∧ a ∉ ms.registered ∧
      ms'.nbrMonitors.toNat = ms.nbrMonitors.toNat + 1 ∧ ms.nbrMonitors.toNat < maxEmulators ∧
      ms'.registered = ms.registered ++ [a]) := by
  unfold addMonitor at h
  split at h
  · rename_i hany
    obtain ⟨k, -, hk⟩ := List.any_eq_true.mp hany
    obtain ⟨hlt, htext⟩ : k.val < ms.nbrMonitors.toNat ∧ inetNtoa (ms.adrs k) = ip := by
      simpa using hk
    exact .inl ⟨(Except.ok.inj h).symm, _, mem_filled.mpr ⟨k, hlt, rfl⟩, htext⟩
  · rename_i hany
    -- an address that is registered would have been found by its text
    have hnew : ∀ a, inetPton ip = some a → a ∉ ms.registered := by
      intro a ha hmem
      obtain ⟨k, hk, hadr⟩ := mem_filled.mp hmem
      refine hany (List.any_eq_true.mpr ⟨k, List.mem_finRange k, ?_⟩)
      simpa [hk, hadr] using inetNtoa_of_inetPton ha
    split at h
    · cases h
    · rename_i hle
      have hsucc : (ms.nbrMonitors + 1).toNat = ms.nbrMonitors.toNat + 1 := by
        rw [UInt32.toNat_add, UInt32.toNat_one]
        simp only [maxEmulators] at hle
        omega
      cases haddr : inetPton ip with
      | none =>
        simp only [haddr] at h
        obtain rfl := Except.ok.inj h
        refine .inr (.inl ⟨rfl, hsucc, fun a ha => ?_⟩)
        obtain ⟨k, hk, hadr⟩ := mem_filled.mp ha
        refine mem_filled.mpr ⟨k, ?_, hadr⟩
        rw [hsucc]
        exact Nat.lt_succ_of_lt hk
      | some a =>
        simp only [haddr] at h
        split at h
        · rename_i hlt
          obtain rfl := Except.ok.inj h
          refine .inr (.inr ⟨a, rfl, hnew a haddr, hsucc, hlt, ?_⟩)
          simp only [Monitors.registered, hsucc]
          exact filled_update hlt a
        · cases h

/-- `add_monitor` only fails on a full list. -/
theorem addMonitor_error {ms : Monitors} {ip : Text} {x : Fault}
    (h : addMonitor ms ip = .error x) : maxEmulators ≤ ms.nbrMonitors.toNat ∧
      ∀ a, inetPton ip = some a → a ∉ ms.registered := by
  unfold addMonitor at h
  split at h
  · cases h
  · rename_i hany
    refine ⟨?_, fun a ha hmem => ?_⟩
    · split at h
      · rename_i hlt
        exact Nat.le_of_lt hlt
      · split at h
        · cases h
        · split at h
          · cases h
          · rename_i hge
            exact Nat.le_of_not_lt hge
    · obtain ⟨k, hk, hadr⟩ := mem_filled.mp hmem
      refine hany (List.any_eq_true.mpr ⟨k, List.mem_finRange k, ?_⟩)
      simpa [hk, hadr] using inetNtoa_of_inetPton ha

/-- The list only grows, and afterwards it has the monitor. -/
theorem registered_addMonitor {ms ms' : Monitors} {ip : Text} (h : addMonitor ms ip = .ok ms') :
    ms.registered ⊆ ms'.registered ∧ ∀ a, inetPton ip = some a → a ∈ ms'.registered := by
  rcases addMonitor_cases h with ⟨rfl, a', ha', htext⟩ | ⟨hnone, -, hsub⟩ | ⟨a', ha', -, -, -, happ⟩
  · refine ⟨fun _ => id, fun a ha => ?_⟩
    rw [← htext, inetPton_inetNtoa] at ha
    exact Option.some.inj ha ▸ ha'
  · exact ⟨hsub, fun a ha => by rw [hnone] at ha; cases ha⟩
  · refine ⟨fun x hx => happ ▸ List.mem_append_left _ hx, fun a ha => ?_⟩
    obtain rfl := Option.some.inj (ha'.symm.trans ha)
    rw [happ]
    exact List.mem_append_right _ List.mem_cons_self

/-! ## The tables of a flow -/

/-- The monitor tables of a flow. -/
def Flow.monitorTables (f : Flow) : (Dir → Fin maxEmulators → InAddr) ×
    (Dir → Fin maxEmulators → PerMonitorStat) × (Dir → UInt32) :=
  (f.emulatorMonitorAdr, f.monitorStat, f.numberOfMonitors)

/-- What the monitor `a` has reported of direction `d` of a flow. -/
def Flow.statOf (f : Flow) (d : Dir) (a : InAddr) : PerMonitorStat :=
  match slotOf (f.emulatorMonitorAdr d) (f.numberOfMonitors d) a with
  | some k => f.monitorStat d k
  | none => {}

/-- The tables of a flow, one by one. -/
theorem Flow.monitorTables_inj {f f' : Flow} (h : f'.monitorTables = f.monitorTables) :
    f'.emulatorMonitorAdr = f.emulatorMonitorAdr ∧ f'.monitorStat = f.monitorStat ∧
      f'.numberOfMonitors = f.numberOfMonitors := by
  simpa [Flow.monitorTables] using h

/-- The slots of a flow are read off its tables. -/
theorem Flow.slots_congr {f f' : Flow} (h : f'.monitorTables = f.monitorTables) :
    f'.slots = f.slots := by
  obtain ⟨hadr, -, hnum⟩ := Flow.monitorTables_inj h
  ext d
  simp only [Flow.slots, hadr, hnum]

/-- The counters of a monitor are read off the tables. -/
theorem Flow.statOf_congr {f f' : Flow} (h : f'.monitorTables = f.monitorTables) :
    f'.statOf = f.statOf := by
  obtain ⟨hadr, hstat, hnum⟩ := Flow.monitorTables_inj h
  ext d a
  simp only [Flow.statOf, hadr, hstat, hnum]

/-- The tables of a flow are within their bounds, hold no address twice, and hold addresses of `R`
only. -/
structure Flow.MonitorsOk (R : List InAddr) (f : Flow) : Prop where
  number_le : ∀ d, (f.numberOfMonitors d).toNat ≤ maxEmulators
  nodup : ∀ d, (f.slots d).Nodup
  subset : ∀ d, f.slots d ⊆ R

/-- Whether the tables are right is read off them. -/
theorem Flow.MonitorsOk.congr {R : List InAddr} {f f' : Flow} (h : f.MonitorsOk R)
    (htables : f'.monitorTables = f.monitorTables) : f'.MonitorsOk R := by
  obtain ⟨-, -, hnum⟩ := Flow.monitorTables_inj htables
  refine ⟨fun d => ?_, fun d => ?_, fun d => ?_⟩
  · rw [hnum]
    exact h.number_le d
  · rw [Flow.slots_congr htables]
    exact h.nodup d
  · rw [Flow.slots_congr htables]
    exact h.subset d

/-- More monitors can have been registered. -/
theorem Flow.MonitorsOk.mono {R R' : List InAddr} {f : Flow} (h : f.MonitorsOk R)
    (hsub : R ⊆ R') : f.MonitorsOk R' :=
  ⟨h.number_le, h.nodup, fun d _ hb => hsub (h.subset d hb)⟩

/-- The number of slots in use. -/
theorem Flow.length_slots {f : Flow} {d : Dir}
    (h : (f.numberOfMonitors d).toNat ≤ maxEmulators) :
    (f.slots d).length = (f.numberOfMonitors d).toNat :=
  length_filled h

/-- The tables of a flow that has just been created. -/
theorem slots_firstMonitor (ndx : Dir) (a : InAddr) (f : Flow) :
    (firstMonitor ndx a f).slots ndx = [a] ∧ (firstMonitor ndx a f).slots ndx.other = [] := by
  have hone : (1 : UInt32).toNat = 1 := rfl
  have hzero : (0 : UInt32).toNat = 0 := rfl
  constructor
  · simp only [Flow.slots, firstMonitor, update_self, update_of_ne (Dir.ne_other ndx), hone]
    exact filled_update (g := f.emulatorMonitorAdr ndx) (n := 0) (by decide) a
  · simp only [Flow.slots, firstMonitor, update_self, hzero, filled_zero]

/-- The tables of a flow are right behind its first report. -/
theorem monitorsOk_firstMonitor {R : List InAddr} {a : InAddr} (ha : a ∈ R) (ndx : Dir)
    (f : Flow) : (firstMonitor ndx a f).MonitorsOk R := by
  obtain ⟨hself, hother⟩ := slots_firstMonitor ndx a f
  refine ⟨fun d => ?_, fun d => ?_, fun d => ?_⟩
  · rcases Dir.eq_or_eq_other ndx d with rfl | rfl
    all_goals simp [firstMonitor]
  · rcases Dir.eq_or_eq_other ndx d with rfl | rfl
    · rw [hself]
      exact List.nodup_singleton a
    · rw [hother]
      exact List.nodup_nil
  · rcases Dir.eq_or_eq_other ndx d with rfl | rfl
    · rw [hself]
      exact List.cons_subset.mpr ⟨ha, List.nil_subset R⟩
    · rw [hother]
      exact List.nil_subset R

/-- What filing a packet under a monitor does to the tables of a flow. -/
structure Filed (ndx : Dir) (a : InAddr) (stat : PerMonitorStat) (f f' : Flow) : Prop where
  slots_self : f'.slots ndx = if a ∈ f.slots ndx then f.slots ndx else f.slots ndx ++ [a]
  slots_other : f'.slots ndx.other = f.slots ndx.other
  number_self : (f'.numberOfMonitors ndx).toNat ≤ maxEmulators
  number_other : f'.numberOfMonitors ndx.other = f.numberOfMonitors ndx.other
  statOf_self : f'.statOf ndx a =
    { octets := (f.statOf ndx a).octets + stat.octets
      packets := (f.statOf ndx a).packets + stat.packets }
  statOf_ne : ∀ b, b ≠ a → f'.statOf ndx b = f.statOf ndx b
  statOf_other : f'.statOf ndx.other = f.statOf ndx.other

/-- A monitor without a slot has counted nothing. -/
theorem Flow.statOf_eq_none {f : Flow} {d : Dir} {a : InAddr} (h : a ∉ f.slots d) :
    f.statOf d a = {} := by
  have hslot : slotOf (f.emulatorMonitorAdr d) (f.numberOfMonitors d) a = none :=
    firstSlot_eq_none.mpr h
  simp only [Flow.statOf, hslot]

/-- A monitor that has reported the flow before. -/
theorem filed_of_slot {ndx : Dir} {a : InAddr} {stat : PerMonitorStat} {f : Flow}
    {k : Fin maxEmulators} (hnum : (f.numberOfMonitors ndx).toNat ≤ maxEmulators)
    (hslot : slotOf (f.emulatorMonitorAdr ndx) (f.numberOfMonitors ndx) a = some k) :
    Filed ndx a stat f { f with
      monitorStat := update f.monitorStat ndx (update (f.monitorStat ndx) k
        { octets := (f.monitorStat ndx k).octets + stat.octets
          packets := (f.monitorStat ndx k).packets + stat.packets }) } := by
  obtain ⟨hk, hadr⟩ := firstSlot_eq_some hslot
  have hmem : a ∈ f.slots ndx := mem_filled.mpr ⟨k, hk, hadr⟩
  refine { slots_self := ?_, slots_other := rfl, number_self := hnum, number_other := rfl,
           statOf_self := ?_, statOf_ne := ?_, statOf_other := ?_ }
  · rw [if_pos hmem]
    rfl
  · simp only [Flow.statOf, hslot, update_self]
  -- the slot of another monitor is another slot
  · intro b hb
    simp only [Flow.statOf, update_self]
    cases hslot' : slotOf (f.emulatorMonitorAdr ndx) (f.numberOfMonitors ndx) b with
    | none => rfl
    | some j =>
      have hjk : j ≠ k := by
        rintro rfl
        exact hb ((firstSlot_eq_some hslot').2.symm.trans hadr)
      simp only [update_of_ne hjk]
  · ext b
    simp only [Flow.statOf, update_of_ne (Dir.other_ne ndx)]

/-- A monitor that has not reported the flow before. -/
theorem filed_of_new {ndx : Dir} {a : InAddr} {stat : PerMonitorStat} {f : Flow}
    (hslot : slotOf (f.emulatorMonitorAdr ndx) (f.numberOfMonitors ndx) a = none)
    (h : (f.numberOfMonitors ndx).toNat < maxEmulators) :
    Filed ndx a stat f { f with
      emulatorMonitorAdr := update f.emulatorMonitorAdr ndx
        (update (f.emulatorMonitorAdr ndx) ⟨(f.numberOfMonitors ndx).toNat, h⟩ a)
      monitorStat := update f.monitorStat ndx
        (update (f.monitorStat ndx) ⟨(f.numberOfMonitors ndx).toNat, h⟩ stat)
      numberOfMonitors := update f.numberOfMonitors ndx (f.numberOfMonitors ndx + 1) } := by
  have hnew : a ∉ f.slots ndx := firstSlot_eq_none.mp hslot
  have hsucc : (f.numberOfMonitors ndx + 1).toNat = (f.numberOfMonitors ndx).toNat + 1 := by
    rw [UInt32.toNat_add, UInt32.toNat_one]
    simp only [maxEmulators] at h
    omega
  refine { slots_self := ?_, slots_other := ?_, number_self := ?_, number_other := ?_,
           statOf_self := ?_, statOf_ne := ?_, statOf_other := ?_ }
  · rw [if_neg hnew]
    simp only [Flow.slots, update_self, hsucc]
    exact filled_update h a
  · simp only [Flow.slots, update_of_ne (Dir.other_ne ndx)]
  · simp only [update_self, hsucc]
    exact h
  · exact update_of_ne (Dir.other_ne ndx) _ _
  · have hself := firstSlot_update_self h hnew
    rw [Flow.statOf_eq_none hnew]
    simp only [Flow.statOf, slotOf, update_self, hsucc, hself, UInt32.zero_add]
  -- the slots before the new one are those of the monitors that were there
  · intro b hb
    have hne := firstSlot_update_ne (g := f.emulatorMonitorAdr ndx) h hb
    simp only [Flow.statOf, slotOf, update_self, hsucc, hne]
    cases hslot' : firstSlot (f.emulatorMonitorAdr ndx) (f.numberOfMonitors ndx).toNat b with
    | none => rfl
    | some j =>
      have hj : j ≠ ⟨(f.numberOfMonitors ndx).toNat, h⟩ := by
        rintro rfl
        exact Nat.lt_irrefl _ (firstSlot_eq_some hslot').1
      simp only [update_of_ne hj]
  · ext b
    simp only [Flow.statOf, update_of_ne (Dir.other_ne ndx)]

/-- `countMonitor` files the counters of the record. -/
theorem filed_countMonitor {ndx : Dir} {a : InAddr} {tmp f f' : Flow}
    (hnum : (f.numberOfMonitors ndx).toNat ≤ maxEmulators)
    (h : countMonitor ndx a tmp f = .ok f') : Filed ndx a (tmp.totals ndx) f f' := by
  unfold countMonitor at h
  split at h
  · rename_i k hslot
    obtain rfl := Except.ok.inj h
    exact filed_of_slot hnum hslot
  · rename_i hslot
    split at h
    · obtain rfl := Except.ok.inj h
      exact filed_of_new hslot _
    · cases h

/-- `countMonitor` only fails on a full table. -/
theorem countMonitor_error {ndx : Dir} {a : InAddr} {tmp f : Flow} {x : Fault}
    (h : countMonitor ndx a tmp f = .error x) :
    maxEmulators ≤ (f.numberOfMonitors ndx).toNat ∧ a ∉ f.slots ndx := by
  unfold countMonitor at h
  split at h
  · cases h
  · rename_i hslot
    split at h
    · cases h
    · rename_i hge
      exact ⟨Nat.le_of_not_lt hge, firstSlot_eq_none.mp hslot⟩

/-- A report that is filed keeps the tables right. -/
theorem Filed.monitorsOk {ndx : Dir} {a : InAddr} {stat : PerMonitorStat} {f f' : Flow}
    {R : List InAddr} (hfiled : Filed ndx a stat f f') (h : f.MonitorsOk R) (ha : a ∈ R) :
    f'.MonitorsOk R := by
  have hself : (f'.slots ndx).Nodup ∧ f'.slots ndx ⊆ R := by
    rw [hfiled.slots_self]
    split
    · exact ⟨h.nodup ndx, h.subset ndx⟩
    · rename_i hnew
      refine ⟨List.nodup_append.mpr ⟨h.nodup ndx, List.nodup_singleton a, ?_⟩, ?_⟩
      · rintro b hb c hc rfl
        exact hnew (List.mem_singleton.mp hc ▸ hb)
      · exact List.append_subset.mpr ⟨h.subset ndx, List.cons_subset.mpr ⟨ha, List.nil_subset R⟩⟩
  refine ⟨fun d => ?_, fun d => ?_, fun d => ?_⟩
  all_goals rcases Dir.eq_or_eq_other ndx d with rfl | rfl
  · exact hfiled.number_self
  · rw [hfiled.number_other]
    exact h.number_le _
  · exact hself.1
  · rw [hfiled.slots_other]
    exact h.nodup _
  · exact hself.2
  · rw [hfiled.slots_other]
    exact h.subset _

/-! ## The record of a message -/

/-- The monitor a message names. -/
def EmulatorCall.monitor (c : EmulatorCall) : Option InAddr :=
  (copyPart 16 c.pkt 0).toOption.bind inetPton

/-- The monitor is the address in the first part of the message. -/
theorem EmulatorCall.monitor_eq {c : EmulatorCall} {em : Text} (h : copyPart 16 c.pkt 0 = .ok em) :
    c.monitor = inetPton em := by
  rw [EmulatorCall.monitor, h]
  rfl

/-- What a message says about the flow and its counters, apart from the key: a record of one
packet, in direction `ndx`. -/
structure Flow.IsRecord (len : UInt32) (ndx : Dir) (f : Flow) : Prop where
  tables : f.monitorTables = ({} : Flow).monitorTables
  af_eq : f.af = afInet
  octets_eq : f.octets = update (fun _ => 0) ndx len
  packets_eq : f.packets = update (fun _ => 0) ndx 1

/-- The transport header leaves the counters of a record alone. -/
theorem emulatorTransportToFlowrec_isRecord {flow flow' : Flow} {pkt : Text} {protocol : UInt8}
    {ndx : Dir} {u : Uninit} {len : UInt32} (h : flow.IsRecord len ndx)
    (heq : emulatorTransportToFlowrec flow pkt protocol ndx u = .ok flow') :
    flow'.IsRecord len ndx := by
  obtain ⟨tmpPacket, -, heq⟩ := bind_eq_ok.mp heq
  obtain ⟨sport, -, heq⟩ := bind_eq_ok.mp heq
  obtain ⟨dport, -, heq⟩ := bind_eq_ok.mp heq
  split at heq
  · obtain ⟨flags, -, heq⟩ := bind_eq_ok.mp heq
    obtain rfl := Except.ok.inj heq
    exact ⟨h.tables, h.af_eq, h.octets_eq, h.packets_eq⟩
  · split at heq
    · obtain rfl := Except.ok.inj heq
      exact ⟨h.tables, h.af_eq, h.octets_eq, h.packets_eq⟩
    · split at heq
      all_goals
        obtain rfl := Except.ok.inj heq
        exact ⟨h.tables, h.af_eq, h.octets_eq, h.packets_eq⟩

/-- The record of a message. -/
theorem EmulatorCall.isRecord {c : EmulatorCall} {tmp : Flow} {frag : ℤ} {ndx : Dir}
    (h : c.record = .ok (tmp, frag, ndx)) : tmp.IsRecord c.len ndx := by
  unfold EmulatorCall.record at h
  split at h
  · rename_i haf
    obtain ⟨tmpPacket, -, h⟩ := bind_eq_ok.mp h
    obtain ⟨src, -, h⟩ := bind_eq_ok.mp h
    obtain ⟨dst, -, h⟩ := bind_eq_ok.mp h
    obtain ⟨⟨ipP, isfrag, ipOff⟩, -, h⟩ := bind_eq_ok.mp h
    obtain ⟨asSrc, -, h⟩ := bind_eq_ok.mp h
    obtain ⟨asDst, -, h⟩ := bind_eq_ok.mp h
    dsimp only at h
    split at h
    · obtain ⟨rfl, -, rfl⟩ : _ ∧ _ ∧ _ := by simpa using Except.ok.inj h
      exact ⟨rfl, haf, rfl, rfl⟩
    · obtain ⟨flow', htransport, h⟩ := bind_eq_ok.mp h
      obtain ⟨rfl, -, rfl⟩ : _ ∧ _ ∧ _ := by simpa using Except.ok.inj h
      refine emulatorTransportToFlowrec_isRecord ?_ htransport
      exact ⟨rfl, haf, rfl, rfl⟩
  · cases h

/-- The tracking level does not touch these fields. -/
theorem Flow.IsRecord.mask {len : UInt32} {ndx : Dir} {tmp : Flow} (h : tmp.IsRecord len ndx)
    (ft : FlowTrack) : (ft.maskRecord tmp).IsRecord len ndx := by
  unfold FlowTrack.maskRecord
  split <;> exact ⟨h.tables, h.af_eq, h.octets_eq, h.packets_eq⟩

/-! ## The flows after a message -/

/-- Settling a flow leaves its tables alone. -/
theorem EmulatorCall.monitorTables_settle (c : EmulatorCall) (last : Text) (tmp : Flow) (ndx : Dir)
    (f : Flow) : (c.settle last tmp ndx f).monitorTables = f.monitorTables := by
  unfold EmulatorCall.settle
  split <;> rfl

/-- Counting a message leaves the flows alone. -/
theorem FlowTrack.flows_counted (ft : FlowTrack) (frag : ℤ) : (ft.counted frag).flows = ft.flows :=
  congrArg Prod.fst (ft.table_counted frag)

/-- A new expiry leaves the flows alone. -/
theorem FlowTrack.flows_flowUpdateExpiry {ft ft' : FlowTrack} {p : ℕ}
    (h : ft.flowUpdateExpiry p = .ok ft') : ft'.flows = ft.flows := by
  obtain ⟨_, _, -, -, rfl⟩ := FlowTrack.flowUpdateExpiry_eq_ok.mp h
  rfl

/-- The flows after a creation are those before and at most the new one. -/
theorem FlowTrack.mem_flows_createFlow {ft ft' : FlowTrack} {tmp f : Flow} {alloc : Alloc}
    {p : Option ℕ} (h : ft.createFlow tmp alloc = (ft', p)) (hf : f ∈ ft'.flows) :
    f ∈ ft.flows ∨ (f.key = tmp.key ∧ f.monitorTables = tmp.monitorTables) := by
  unfold FlowTrack.createFlow at h
  split at h
  · obtain ⟨rfl, -⟩ := Prod.mk.inj h
    exact .inl hf
  · split at h
    all_goals
      obtain ⟨rfl, -⟩ := Prod.mk.inj h
      rcases mem_of_mem_insert hf with rfl | hf
      · exact .inr ⟨rfl, rfl⟩
      · exact .inl hf

/-- A flow is as it was, or it is the one that has been changed. -/
theorem FlowTrack.mem_flows_modifyFlow {ft : FlowTrack} {p : ℕ} {g : Flow → Flow} {f : Flow}
    (hf : f ∈ (ft.modifyFlow p g).flows) : f ∈ ft.flows ∨ ∃ f₀ ∈ ft.flows, f = g f₀ := by
  obtain ⟨f₀, hf₀, rfl⟩ := List.mem_map.mp hf
  split
  · exact .inr ⟨f₀, hf₀, rfl⟩
  · exact .inl hf₀

/-- A property of the flows that depends on their key and their monitor tables only holds after a
message if it holds before, of the record of the message, and of what is done to the tables. -/
theorem EmulatorStep.forall_flows {s s' : Tracker} {c : EmulatorCall} {r : PpResult}
    {Q : Flow → Prop} (hstep : EmulatorStep s c r s')
    (hcongr : ∀ f f' : Flow, f'.key = f.key → f'.monitorTables = f.monitorTables → Q f → Q f')
    (hnew : ∀ ndx tmp, tmp.IsRecord c.len ndx → Q tmp)
    (hfirst : ∀ ndx a f, c.monitor = some a → Q f → Q (firstMonitor ndx a f))
    (hcount : ∀ ndx a tmp f f', c.monitor = some a → Q f → countMonitor ndx a tmp f = .ok f' → Q f')
    (h : ∀ f ∈ s.ft.flows, Q f) : ∀ f ∈ s'.ft.flows, Q f := by
  have hc : ∀ frag, ∀ f ∈ (s.ft.counted frag).flows, Q f := fun frag => by
    rw [FlowTrack.flows_counted]
    exact h
  -- a flow after `create_flow` is an old flow or the record of the message
  have hcreate : ∀ {tmp frag ndx ft p}, c.record = .ok (tmp, frag, ndx) →
      (s.ft.counted frag).createFlow (((s.ft.counted frag).maskRecord tmp).stamp c.received)
        c.alloc = (ft, p) → ∀ f ∈ ft.flows, Q f := by
    intro tmp frag ndx ft p hrec hcreate f hf
    rcases FlowTrack.mem_flows_createFlow hcreate hf with hf | ⟨hkey, htables⟩
    · exact hc frag f hf
    · refine hcongr _ f hkey htables (hnew ndx _ ?_)
      have hmask := (EmulatorCall.isRecord hrec).mask (s.ft.counted frag)
      exact ⟨hmask.tables, hmask.af_eq, hmask.octets_eq, hmask.packets_eq⟩
  cases hstep with
  | badRecord => exact h
  | noMemory hrec _ hcr => exact hcreate hrec hcr
  | createdBad hrec _ hcr => exact hcreate hrec hcr
  | created hrec _ hcr hpart haddr =>
    intro f hf
    rcases FlowTrack.mem_flows_modifyFlow hf with hf | ⟨f₀, hf₀, rfl⟩
    · exact hcreate hrec hcr f hf
    · exact hfirst _ _ _ ((EmulatorCall.monitor_eq hpart).trans haddr) (hcreate hrec hcr f₀ hf₀)
  | ignored => exact hc _
  | updatedBad => exact hc _
  | updatedBadMonitor => exact hc _
  | updatedBadMark _ hfind hpart haddr _ hcm =>
    intro f hf
    rcases FlowTrack.mem_flows_modifyFlow hf with hf | ⟨f₀, hf₀, rfl⟩
    · exact hc _ f hf
    · exact hcount _ _ _ _ _ ((EmulatorCall.monitor_eq hpart).trans haddr)
        (hc _ _ (find_eq_some hfind).1) hcm
  | updated _ hfind _ _ hpart haddr _ hcm _ _ hupd =>
    intro f hf
    rw [FlowTrack.flows_flowUpdateExpiry hupd] at hf
    rcases FlowTrack.mem_flows_modifyFlow hf with hf | ⟨f₀, hf₀, rfl⟩
    · exact hc _ f hf
    · refine hcongr _ _ ?_ (c.monitorTables_settle _ _ _ _) (hcount _ _ _ _ _
        ((EmulatorCall.monitor_eq hpart).trans haddr) (hc _ _ (find_eq_some hfind).1) hcm)
      exact congrArg (fun x => x.2.2.2) (c.ident_settle _ _ _ _)

/-- The tables of all flows stay in order, whatever the message. -/
theorem EmulatorStep.monitorsOk {s s' : Tracker} {c : EmulatorCall} {r : PpResult}
    {R : List InAddr} (hstep : EmulatorStep s c r s') (hc : ∀ a, c.monitor = some a → a ∈ R)
    (h : ∀ f ∈ s.ft.flows, f.MonitorsOk R) : ∀ f ∈ s'.ft.flows, f.MonitorsOk R := by
  refine hstep.forall_flows ?_ ?_ ?_ ?_ h
  · exact fun f f' _ htables hf => hf.congr htables
  · intro ndx tmp htmp
    refine Flow.MonitorsOk.congr (f := {}) ⟨fun d => ?_, fun d => ?_, fun d => ?_⟩ htmp.tables
    · exact Nat.zero_le _
    · exact List.nodup_nil
    · exact List.nil_subset R
  · exact fun ndx a f ha _ => monitorsOk_firstMonitor (hc a ha) ndx f
  · exact fun ndx a tmp f f' ha hf hcount =>
      (filed_countMonitor (hf.number_le ndx) hcount).monitorsOk hf (hc a ha)

/-! ## Selecting flows for the export -/

/-- What `markFlow` makes of a flow whose tables are within their bounds. -/
def marked (d : Dir) (a : InAddr) (f : Flow) : Flow × Bool :=
  match slotOf (f.emulatorMonitorAdr d) (f.numberOfMonitors d) a with
  | some n => (selectFlow a n f, true)
  | none => (f, false)

/-- The search for a monitor stays inside the tables. -/
theorem markFlow_of_le {f : Flow} {d : Dir} (h : (f.numberOfMonitors d).toNat ≤ maxEmulators)
    (a : InAddr) : markFlow d a f = .ok (marked d a f) := by
  unfold markFlow marked matchMonitor
  cases slotOf (f.emulatorMonitorAdr d) (f.numberOfMonitors d) a with
  | some n => rfl
  | none =>
    rw [if_neg (Nat.not_lt.mpr h)]
    rfl

/-- So it does when the tables are right. -/
theorem markFlow_eq {R : List InAddr} {f : Flow} (h : f.MonitorsOk R) (d : Dir) (a : InAddr) :
    markFlow d a f = .ok (marked d a f) :=
  markFlow_of_le (h.number_le d) a

/-- Selecting a flow does not touch its tables. -/
@[simp]
theorem monitorTables_marked (d : Dir) (a : InAddr) (f : Flow) :
    (marked d a f).1.monitorTables = f.monitorTables := by
  unfold marked
  split <;> rfl

/-- A selected flow has a slot of its table selected. -/
theorem selectedMonitorIndex_marked {d : Dir} {a : InAddr} {f : Flow}
    (h : (marked d a f).2 = true) :
    (marked d a f).1.selectedMonitorIndex.toNat < maxEmulators := by
  unfold marked at h ⊢
  split at h
  · rename_i n _
    have hn : n.val < 50 := n.isLt
    simp only [selectFlow, UInt16.toNat_ofNat']
    omega
  · cases h

end Softflowd
