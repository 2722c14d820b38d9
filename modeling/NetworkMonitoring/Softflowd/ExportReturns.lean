import NetworkMonitoring.Softflowd.MonitorBounds
import NetworkMonitoring.Softflowd.NetFlow1
import NetworkMonitoring.Softflowd.NetFlow9Progress

/-!
# softflowd — when a call of `check_expired` returns

`check_expired` returns when its scan can follow the events of the tree, the monitor tables of the
flows it takes out are within their bounds, and the send function returns. What a send function
needs for this is a `SendSpec`: `send_netflow_v1` and `send_netflow_v5` always return, and
`send_netflow_v9` when all flows have octets in some direction.

## Main results

* `SendSpec.v1`, `SendSpec.v5`, `SendSpec.v9`: the send functions of the table `nf[]`;
* `checkExpired_ends`: the call returns, and leaves an exporter for the next one.
-/

namespace Softflowd

open ErrorLoops InetText

/-! ## The send functions -/

/-- What a send function needs to return. -/
structure SendSpec (usingEmulator : Bool) (func : NetflowSendFunc) where
  /-- The number of flows a call may be given. -/
  maxFlows : ℕ
  flowOk : Flow → Prop
  exporterOk : Exporter → Prop
  retire : ∀ f, flowOk f → flowOk f.retire
  select : ∀ a n f, flowOk f → flowOk (selectFlow a n f)
  /-- It returns, and leaves an exporter for the next call. -/
  returns : ∀ flows exported boot inOut ex, flows.length ≤ maxFlows → (∀ f ∈ flows, flowOk f) →
    (usingEmulator = true → ∀ f ∈ flows, f.selectedMonitorIndex.toNat < maxEmulators) →
    exporterOk ex →
    Ends (fun _ => False) (fun out => exporterOk out.2.2) (func flows exported boot inOut ex)

/-- `send_netflow_v1` always returns. -/
def SendSpec.v1 (usingEmulator : Bool) (now : Timeval) (asSrcArray asDstArray : Flow → UInt16)
    (n : ℕ) : SendSpec usingEmulator (sendNetflowV1 usingEmulator now asSrcArray asDstArray) where
  maxFlows := n
  flowOk := fun _ => True
  exporterOk := fun _ => True
  retire := fun _ => id
  select := fun _ _ _ => id
  returns := by
    intro flows exported boot inOut ex _ _ _ _
    unfold sendNetflowV1
    split <;> trivial

/-- `send_netflow_v5` returns unless it leaves the monitor tables. -/
def SendSpec.v5 (usingEmulator : Bool) (now : Timeval) (n : ℕ) :
    SendSpec usingEmulator (sendNetflowV5 usingEmulator now) where
  maxFlows := n
  flowOk := fun _ => True
  exporterOk := fun _ => True
  retire := fun _ => id
  select := fun _ _ _ => id
  returns := by
    intro flows exported boot inOut ex _ _ hidx _
    have hsafe := sendNetflowV5_indexSafe usingEmulator now flows exported boot inOut ex hidx
    cases hcall : sendNetflowV5 usingEmulator now flows exported boot inOut ex with
    | ok out => trivial
    | error x =>
      have hx : x = .monitorTable := by
        unfold sendNetflowV5 at hcall
        split at hcall
        · exact (Except.error.inj hcall).symm
        · cases hcall
        · cases hcall
      exact absurd (hx ▸ hcall) hsafe

/-- `send_netflow_v9` returns when all flows have octets in some direction. -/
def SendSpec.v9 (usingEmulator : Bool) (fuel : ℕ) (now : Timeval) (time : ℕ → ℤ) :
    SendSpec usingEmulator (sendNetflowV9 fuel now time) where
  maxFlows := fuel
  flowOk := Flow.Exportable
  exporterOk := fun ex => ex.nf9.Reachable
  retire := fun _ h => ⟨h.family, h.octets⟩
  select := fun _ _ _ h => ⟨h.family, h.octets⟩
  returns := by
    intro flows exported boot inOut ex hfuel hflows _ hex
    have hcall : ∃ out, sendNetflowV9 fuel now time flows exported boot inOut ex = .ok out := by
      set st : V9Send := { ex := { ex with nf9 := ex.nf9.init } } with hst
      have hts : V9Packet.Initialised st.ex.nf9 := (Nf9Statics.init_ready hex.ready).2
      obtain ⟨res, hres⟩ := sendLoopV9_returns ⟨now, time, boot⟩ exported hts hflows hfuel
      rw [sendNetflowV9, ← hst, hres]
      cases res <;> exact ⟨_, rfl⟩
    obtain ⟨⟨r, exported', ex'⟩, hcall⟩ := hcall
    rw [hcall]
    exact .send hex hcall

/-! ## The calls of `check_expired` -/

/-- The monitor tables are within their bounds. -/
structure TablesFit (monitors : Monitors) (flows : List Flow) : Prop where
  monitors_le : monitors.nbrMonitors.toNat ≤ maxEmulators
  number_le : ∀ f ∈ flows, ∀ d, (f.numberOfMonitors d).toNat ≤ maxEmulators

section Calls

variable {usingEmulator : Bool} {func : NetflowSendFunc}

/-- The flows and the exporter are what the send function needs. -/
structure SendSpec.Meets (spec : SendSpec usingEmulator func) (flows : List Flow) (ex : Exporter) :
    Prop where
  length_le : flows.length ≤ spec.maxFlows
  flowOk : ∀ f ∈ flows, spec.flowOk f
  exporterOk : spec.exporterOk ex

/-- The call for one monitor and one direction. -/
theorem exportDirection_ends (spec : SendSpec true func) (a : InAddr) (d : Dir) {st : ExportState}
    (htables : ∀ f ∈ st.expired, ∀ d, (f.numberOfMonitors d).toNat ≤ maxEmulators)
    (h : spec.Meets st.expired st.exporter) :
    Ends (fun _ => False) (fun st' =>
      (∀ f ∈ st'.expired, ∀ d, (f.numberOfMonitors d).toNat ≤ maxEmulators) ∧
        spec.Meets st'.expired st'.exporter) (exportDirection func a st d) := by
  have hmarks : st.expired.mapM (markFlow d a) = .ok (st.expired.map (marked d a)) :=
    mapM_eq_ok fun f hf => markFlow_of_le (htables f hf d) a
  have hmarked : ∀ f, spec.flowOk f → spec.flowOk (marked d a f).1 := by
    intro f hf
    unfold marked
    split
    · exact spec.select a _ f hf
    · exact hf
  rw [exportDirection, hmarks, ok_bind]
  -- the call returns: the flows it gets are those of the array, marked for the monitor
  refine (spec.returns _ _ _ _ _ ?_ ?_ ?_ h.exporterOk).bind ?_
  · rw [List.length_map]
    refine (List.length_filter_le _ _).trans ?_
    rw [List.length_map]
    exact h.length_le
  · intro f hf
    obtain ⟨x, hx, rfl⟩ := List.mem_map.mp hf
    obtain ⟨g, hg, rfl⟩ := List.mem_map.mp (List.mem_filter.mp hx).1
    exact hmarked g (h.flowOk g hg)
  · rintro - f hf
    obtain ⟨x, hx, rfl⟩ := List.mem_map.mp hf
    obtain ⟨hx, hselected⟩ := List.mem_filter.mp hx
    obtain ⟨g, -, rfl⟩ := List.mem_map.mp hx
    exact selectedMonitorIndex_marked hselected
  · -- the marks change neither the tables of a flow nor whether it can be sent
    rintro ⟨r, exported, ex⟩ hex
    refine ⟨fun f hf => ?_, ?_, fun f hf => ?_, hex⟩
    · rw [List.map_map] at hf
      obtain ⟨g, hg, rfl⟩ := List.mem_map.mp hf
      obtain ⟨-, -, hnum⟩ := Flow.monitorTables_inj (monitorTables_marked d a g)
      intro d'
      change ((marked d a g).1.numberOfMonitors d').toNat ≤ maxEmulators
      rw [hnum]
      exact htables g hg d'
    · rw [List.length_map, List.length_map]
      exact h.length_le
    · rw [List.map_map] at hf
      obtain ⟨g, hg, rfl⟩ := List.mem_map.mp hf
      exact hmarked g (h.flowOk g hg)

/-- The calls for all monitors. -/
theorem exportMonitors_ends (spec : SendSpec true func) {ms : Monitors} {st : ExportState}
    (htables : TablesFit ms st.expired) (h : spec.Meets st.expired st.exporter) :
    Ends (fun _ => False) (fun st' => spec.exporterOk st'.exporter)
      (exportMonitors func ms st) := by
  refine (Ends.foldlM (I := fun _ (st' : ExportState) =>
    (∀ f ∈ st'.expired, ∀ d, (f.numberOfMonitors d).toNat ≤ maxEmulators) ∧
      spec.Meets st'.expired st'.exporter) ?_ ⟨htables.number_le, h⟩).imp (fun _ => id)
      fun st' hst' => hst'.2.exporterOk
  rintro pre m post st' hms ⟨hnumber, hmeets⟩
  -- the loop stops at `nbr_monitors`, so the monitor is one of the table
  have hm : m < maxEmulators :=
    Nat.lt_of_lt_of_le (List.mem_range.mp (mem_of_eq_append hms)) htables.monitors_le
  rw [exportMonitor, dif_pos hm]
  refine (exportDirection_ends spec _ 0 hnumber hmeets).bind ?_
  rintro st'' ⟨hnumber', hmeets'⟩
  exact exportDirection_ends spec _ 1 hnumber' hmeets'

/-- The one call outside emulator mode. -/
theorem exportAll_ends (spec : SendSpec false func) {st : ExportState}
    (h : spec.Meets st.expired st.exporter) :
    Ends (fun _ => False) (fun st' => spec.exporterOk st'.exporter) (exportAll func st) := by
  refine (spec.returns _ _ _ _ _ h.length_le h.flowOk (fun hmode => ?_) h.exporterOk).bind ?_
  · cases hmode
  · exact fun out hout => hout

/-- The calls that `check_expired` makes. -/
theorem exportExpired_ends {c : ExpiryCall} (htarget : c.target = some func)
    (spec : SendSpec c.usingEmulator func) {ms : Monitors} {st : ExportState}
    (htables : c.usingEmulator = true → TablesFit ms st.expired)
    (h : spec.Meets st.expired st.exporter) :
    Ends (fun _ => False) (fun st' => spec.exporterOk st'.exporter) (exportExpired c ms st) := by
  obtain ⟨usingEmulator, target, ex, now, reallocOk⟩ := c
  obtain rfl : target = some func := htarget
  cases usingEmulator with
  | false => exact exportAll_ends spec h
  | true => exact exportMonitors_ends spec (htables rfl) h

/-- The call returns, and leaves an exporter for the next one, when its scan takes out flows that
the send function can be given. -/
theorem checkExpired_ends {c : ExpiryCall} {s : Daemon} (htarget : c.target = some func)
    (spec : SendSpec c.usingEmulator func) {ft : FlowTrack} {expired : List Flow}
    (hscan : scanExpired c.now c.ex c.reallocOk s.tracker.ft = .ok (ft, expired))
    (htables : c.usingEmulator = true → TablesFit s.tracker.monitors expired)
    (h : spec.Meets expired s.exporter) :
    Ends (fun _ => False) (fun out => spec.exporterOk out.2.exporter ∧
      out.2.tracker.monitors = s.tracker.monitors) (checkExpired c s) := by
  rw [checkExpired, hscan, ok_bind]
  dsimp only
  split
  · exact ⟨h.exporterOk, rfl⟩
  · exact (exportExpired_ends htarget spec htables h).bind fun st hst => ⟨hst, rfl⟩

end Calls

end Softflowd
