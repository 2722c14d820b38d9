import Mathlib.Algebra.Order.BigOperators.Group.List
import NetworkMonitoring.Softflowd.MonitorTables
import NetworkMonitoring.Softflowd.Pointers
import NetworkMonitoring.Softflowd.Runs

/-!
# softflowd — what the monitor tables count

A run of messages is, for the monitor tables, a list of `Report`s: the key of the flow, the
direction, the monitor and the length. `Flow.Accounts rs f` says that the tables of a flow are the
account of the reports `rs` about it, up to one exception: the branch that creates a flow takes the
counters of direction `0` whatever the direction of the packet, so the first report of a flow is
not counted when it travels in direction `1` (`credited`).

## Main results

* `monitorAccounts_iff`: the tables count every report exactly when no flow is created by a packet
  of direction `1`;
* `firstReport_lost`: a packet from 5.6.7.8 to 1.2.3.4 creates a flow whose table counts nothing.
-/

namespace Softflowd

open ErrorLoops FilledTable Function InetText OrderedSet

/-! ## Reports -/

/-- What a message says about its packet, as far as the monitor tables are concerned. -/
structure Report where
  key : ℤ × FlowAddr × FlowAddr × UInt8 × UInt16 × UInt16
  dir : Dir
  monitor : InAddr
  len : UInt32

/-- The report of a message under a tracking level. -/
def EmulatorCall.report (ft : FlowTrack) (c : EmulatorCall) : Option Report :=
  match c.record with
  | .ok (tmp, _, ndx) => c.monitor.map fun a => ⟨(ft.maskRecord tmp).key, ndx, a, c.len⟩
  | .error _ => none

/-- The reports of a run. -/
def reports (ft : FlowTrack) (cs : List EmulatorCall) : List Report :=
  cs.filterMap (EmulatorCall.report ft)

/-- The number and the total length of the reports of the monitor `a` in direction `d`. -/
def tally (rs : List Report) (d : Dir) (a : InAddr) : ℕ × ℕ :=
  let mine := rs.filter fun r => r.dir = d ∧ r.monitor = a
  (mine.length, (mine.map fun r => r.len.toNat).sum)

/-- The reports about one flow. -/
def reportsOf (key : ℤ × FlowAddr × FlowAddr × UInt8 × UInt16 × UInt16) (rs : List Report) :
    List Report :=
  rs.filter fun r => r.key = key

/-- The reports that the tables count: not a first one of direction `1`. -/
def credited : List Report → List Report
  | [] => []
  | r :: rs => if r.dir = 0 then r :: rs else rs

/-- Counters of 32 bits. -/
def statOfTally (n : ℕ × ℕ) : PerMonitorStat :=
  { packets := UInt32.ofNat n.1, octets := UInt32.ofNat n.2 }

/-! ### One more report -/

/-- The reports of a flow in two lists. -/
theorem reportsOf_append (key : ℤ × FlowAddr × FlowAddr × UInt8 × UInt16 × UInt16)
    (rs rs' : List Report) : reportsOf key (rs ++ rs') = reportsOf key rs ++ reportsOf key rs' :=
  List.filter_append ..

/-- A report of the flow. -/
theorem mem_reportsOf {key : ℤ × FlowAddr × FlowAddr × UInt8 × UInt16 × UInt16} {rs : List Report}
    {r : Report} : r ∈ reportsOf key rs ↔ r ∈ rs ∧ r.key = key := by
  simp [reportsOf]

/-- All reports but the first are credited. -/
theorem credited_append {rs : List Report} (h : rs ≠ []) (r : Report) :
    credited (rs ++ [r]) = credited rs ++ [r] := by
  cases rs with
  | nil => exact absurd rfl h
  | cons r₀ rs =>
    simp only [List.cons_append, credited]
    split <;> rfl

/-- One more report in the tally. -/
theorem tally_concat (rs : List Report) (r : Report) (d : Dir) (a : InAddr) :
    tally (rs ++ [r]) d a = if r.dir = d ∧ r.monitor = a then
      ((tally rs d a).1 + 1, (tally rs d a).2 + r.len.toNat) else tally rs d a := by
  unfold tally
  by_cases h : r.dir = d ∧ r.monitor = a
  · rw [if_pos h, List.filter_append]
    simp [h]
  · rw [if_neg h, List.filter_append]
    simp [h]

/-- The counters after one more packet. -/
theorem statOfTally_concat_self (rs : List Report) (r : Report) :
    statOfTally (tally (rs ++ [r]) r.dir r.monitor) =
      { octets := (statOfTally (tally rs r.dir r.monitor)).octets + r.len
        packets := (statOfTally (tally rs r.dir r.monitor)).packets + 1 } := by
  rw [tally_concat, if_pos ⟨rfl, rfl⟩]
  simp [statOfTally, UInt32.ofNat_add]

/-- A report of another monitor or direction is not tallied. -/
theorem tally_concat_ne {rs : List Report} {r : Report} {d : Dir} {a : InAddr}
    (h : ¬ (r.dir = d ∧ r.monitor = a)) : tally (rs ++ [r]) d a = tally rs d a := by
  rw [tally_concat, if_neg h]

/-! ## The account of a flow -/

/-- The tables of a flow are the account of the reports `rs`. -/
structure Flow.Accounts (rs : List Report) (f : Flow) : Prop where
  number_le : ∀ d, (f.numberOfMonitors d).toNat ≤ maxEmulators
  nodup : ∀ d, (f.slots d).Nodup
  mem_slots : ∀ d a, a ∈ f.slots d ↔ ∃ r ∈ reportsOf f.key rs, r.dir = d ∧ r.monitor = a
  statOf_eq : ∀ d a, f.statOf d a = statOfTally (tally (credited (reportsOf f.key rs)) d a)

/-- The accounts of a flow are read off its key and its tables. -/
theorem Flow.Accounts.congr {rs : List Report} {f f' : Flow} (h : f.Accounts rs)
    (hkey : f'.key = f.key) (htables : f'.monitorTables = f.monitorTables) : f'.Accounts rs := by
  obtain ⟨-, -, hnum⟩ := Flow.monitorTables_inj htables
  refine ⟨?_, ?_, ?_, ?_⟩
  · rw [hnum]
    exact h.number_le
  · rw [Flow.slots_congr htables]
    exact h.nodup
  · rw [Flow.slots_congr htables, hkey]
    exact h.mem_slots
  · rw [Flow.statOf_congr htables, hkey]
    exact h.statOf_eq

/-- A report about another flow. -/
theorem Flow.Accounts.skip {rs : List Report} {f : Flow} (h : f.Accounts rs) {r : Report}
    (hne : r.key ≠ f.key) : f.Accounts (rs ++ [r]) := by
  have hrs : reportsOf f.key (rs ++ [r]) = reportsOf f.key rs := by
    rw [reportsOf_append]
    simp [reportsOf, hne]
  refine ⟨h.number_le, h.nodup, ?_, ?_⟩
  · rw [hrs]
    exact h.mem_slots
  · rw [hrs]
    exact h.statOf_eq

/-- A report about a flow that has been reported before. -/
theorem Flow.Accounts.filed {rs : List Report} {f f' : Flow} (h : f.Accounts rs) {r : Report}
    (hkey : r.key = f.key) (hkey' : f'.key = f.key) (hseen : ∃ r₀ ∈ rs, r₀.key = f.key)
    (hfiled : Filed r.dir r.monitor { octets := r.len, packets := 1 } f f') :
    f'.Accounts (rs ++ [r]) := by
  have hrs : reportsOf f'.key (rs ++ [r]) = reportsOf f.key rs ++ [r] := by
    rw [hkey', reportsOf_append]
    simp [reportsOf, hkey]
  have hne : reportsOf f.key rs ≠ [] := by
    obtain ⟨r₀, hr₀, hk⟩ := hseen
    exact List.ne_nil_of_mem (mem_reportsOf.mpr ⟨hr₀, hk⟩)
  have hok : f.MonitorsOk (f.slots r.dir ++ f.slots r.dir.other ++ [r.monitor]) := by
    refine ⟨h.number_le, h.nodup, fun d a ha => ?_⟩
    rcases Dir.eq_or_eq_other r.dir d with rfl | rfl <;> simp [ha]
  -- the monitor is on the list of its direction afterwards, new or not
  have hok' := hfiled.monitorsOk hok (by simp)
  refine ⟨hok'.number_le, hok'.nodup, ?_, ?_⟩
  · intro d a
    rw [hrs]
    simp only [List.mem_append, List.mem_singleton, or_and_right, exists_or, exists_eq_left]
    rw [← h.mem_slots d a]
    rcases Dir.eq_or_eq_other r.dir d with rfl | rfl
    · rw [hfiled.slots_self]
      -- the direction of the report, where the monitor may be known, and the other one
      by_cases hold : r.monitor ∈ f.slots r.dir
      · rw [if_pos hold]
        refine ⟨Or.inl, ?_⟩
        rintro (ha | ⟨-, rfl⟩)
        · exact ha
        · exact hold
      · rw [if_neg hold, List.mem_append, List.mem_singleton]
        simp [eq_comm]
    · rw [hfiled.slots_other]
      simp [Dir.ne_other]
  · intro d a
    rw [hrs, credited_append hne]
    rcases Dir.eq_or_eq_other r.dir d with rfl | rfl
    · by_cases ha : a = r.monitor
      · subst ha
        rw [statOfTally_concat_self, hfiled.statOf_self, h.statOf_eq]
      · rw [tally_concat_ne fun hand => ha hand.2.symm, hfiled.statOf_ne a ha, h.statOf_eq]
    · rw [tally_concat_ne fun hand => Dir.ne_other _ hand.1, hfiled.statOf_other, h.statOf_eq]

/-- What the first packet of a flow is counted as. -/
theorem statOf_firstMonitor (ndx : Dir) (a : InAddr) (f : Flow) :
    (firstMonitor ndx a f).statOf ndx a = f.totals 0 ∧
      (∀ b, b ≠ a → (firstMonitor ndx a f).statOf ndx b = {}) ∧
      ∀ b, (firstMonitor ndx a f).statOf ndx.other b = {} := by
  obtain ⟨hself, hother⟩ := slots_firstMonitor ndx a f
  refine ⟨?_, fun b hb => ?_, fun b => ?_⟩
  · have hslot : firstSlot (update (f.emulatorMonitorAdr ndx) ⟨0, by decide⟩ a) (0 + 1) a =
        some ⟨0, by decide⟩ := firstSlot_update_self (by decide) (by simp)
    have hone : (1 : UInt32).toNat = 0 + 1 := rfl
    have hadr : (firstMonitor ndx a f).emulatorMonitorAdr ndx =
        update (f.emulatorMonitorAdr ndx) ⟨0, by decide⟩ a := update_self ..
    have hnum : (firstMonitor ndx a f).numberOfMonitors ndx = 1 := by
      simp [firstMonitor]
    simp only [Flow.statOf, slotOf, hadr, hnum, hone, hslot]
    simp only [firstMonitor, update_self]
    rfl
  · apply Flow.statOf_eq_none
    rw [hself]
    simpa using hb
  · apply Flow.statOf_eq_none
    rw [hother]
    exact List.not_mem_nil

/-- The first report about a flow. -/
theorem Flow.Accounts.first {rs : List Report} {f : Flow} {r : Report} (hkey : r.key = f.key)
    (hnone : ∀ r₀ ∈ rs, r₀.key ≠ f.key)
    (hocts : f.octets = update (fun _ => 0) r.dir r.len)
    (hpkts : f.packets = update (fun _ => 0) r.dir 1) :
    (firstMonitor r.dir r.monitor f).Accounts (rs ++ [r]) := by
  -- this report is the only one about the flow
  have hrs : reportsOf (firstMonitor r.dir r.monitor f).key (rs ++ [r]) = [r] := by
    have hold : reportsOf f.key rs = [] :=
      List.filter_eq_nil_iff.mpr fun r₀ hr₀ => by simpa using hnone r₀ hr₀
    change reportsOf f.key (rs ++ [r]) = [r]
    rw [reportsOf_append, hold]
    simp [reportsOf, hkey]
  obtain ⟨hself, hother⟩ := slots_firstMonitor r.dir r.monitor f
  obtain ⟨hstat, hstatNe, hstatOther⟩ := statOf_firstMonitor r.dir r.monitor f
  have hok := monitorsOk_firstMonitor (R := [r.monitor]) List.mem_cons_self r.dir f
  have htotals : f.totals 0 = statOfTally (tally (credited [r]) r.dir r.monitor) := by
    rcases (by decide : ∀ d : Dir, d = 0 ∨ d = 1) r.dir with hd | hd
    · simp [Flow.totals, hocts, hpkts, hd, credited, tally, statOfTally]
    · simp [Flow.totals, hocts, hpkts, hd, credited, tally, statOfTally]
  have hzero : ∀ d a, ¬ (r.dir = d ∧ r.monitor = a) →
      statOfTally (tally (credited [r]) d a) = {} := by
    intro d a hne
    simp only [credited]
    split
    · simp [tally, hne, statOfTally]
    · simp [tally, statOfTally]
  refine ⟨hok.number_le, hok.nodup, ?_, ?_⟩
  · intro d a
    rw [hrs]
    rcases Dir.eq_or_eq_other r.dir d with rfl | rfl
    · rw [hself]
      simp [eq_comm]
    · rw [hother]
      simp
  · intro d a
    rw [hrs]
    rcases Dir.eq_or_eq_other r.dir d with rfl | rfl
    · by_cases ha : a = r.monitor
      · rw [ha, hstat, htotals]
      · rw [hstatNe a ha, hzero _ _ fun hand => ha hand.2.symm]
    · rw [hstatOther a, hzero _ _ fun hand => Dir.ne_other _ hand.1]

/-! ## Runs of messages -/

/-- The flow table is the account of the reports `rs`. -/
structure TableAccounts (rs : List Report) (ft : FlowTrack) : Prop where
  pointers : PointerInv ft
  accounts : ∀ f ∈ ft.flows, f.Accounts rs
  reported : ∀ f ∈ ft.flows, ∃ r ∈ rs, r.key = f.key
  tracked : ∀ r ∈ rs, r.key ∈ ft.flows.map Flow.key

/-- The mask depends on the track level alone. -/
theorem FlowTrack.maskRecord_congr {ft ft' : FlowTrack} (h : ft'.trackLevel = ft.trackLevel) :
    ft'.maskRecord = ft.maskRecord := by
  ext tmp
  simp only [FlowTrack.maskRecord, h]

/-- Counting a message keeps the track level. -/
theorem FlowTrack.trackLevel_counted (ft : FlowTrack) (frag : ℤ) :
    (ft.counted frag).trackLevel = ft.trackLevel := by
  unfold FlowTrack.counted FlowTrack.countFragment
  split <;> rfl

/-- A new expiry keeps the track level. -/
theorem FlowTrack.trackLevel_flowUpdateExpiry {ft ft' : FlowTrack} {p : ℕ}
    (h : ft.flowUpdateExpiry p = .ok ft') : ft'.trackLevel = ft.trackLevel := by
  obtain ⟨_, _, -, -, rfl⟩ := FlowTrack.flowUpdateExpiry_eq_ok.mp h
  rfl

/-- The report of a message whose parts have been read. -/
theorem EmulatorCall.report_eq {c : EmulatorCall} {ft ft' : FlowTrack} {tmp : Flow} {frag : ℤ}
    {ndx : Dir} {a : InAddr} (hrec : c.record = .ok (tmp, frag, ndx)) (ha : c.monitor = some a)
    (hlevel : ft'.trackLevel = ft.trackLevel) :
    c.report ft = some ⟨(ft'.maskRecord tmp).key, ndx, a, c.len⟩ := by
  simp only [EmulatorCall.report, hrec, ha, FlowTrack.maskRecord_congr hlevel, Option.map_some]

/-- One more report. -/
theorem TableAccounts.concat {rs : List Report} {ft ft' : FlowTrack} {r : Report}
    (h : TableAccounts rs ft) (hpointers : PointerInv ft')
    (haccounts : ∀ f ∈ ft'.flows, f.Accounts (rs ++ [r]))
    (hkeys : ∀ k, k ∈ ft'.flows.map Flow.key ↔ k = r.key ∨ k ∈ ft.flows.map Flow.key) :
    TableAccounts (rs ++ [r]) ft' := by
  refine ⟨hpointers, haccounts, fun f hf => ?_, fun r' hr' => (hkeys r'.key).mpr ?_⟩
  · rcases (hkeys f.key).mp (List.mem_map_of_mem hf) with hk | hk
    · exact ⟨r, List.mem_append_right _ List.mem_cons_self, hk.symm⟩
    · obtain ⟨f₀, hf₀, hk₀⟩ := List.mem_map.mp hk
      obtain ⟨r', hr', hk'⟩ := h.reported f₀ hf₀
      exact ⟨r', List.mem_append_left _ hr', hk'.trans hk₀⟩
  · rcases List.mem_append.mp hr' with hr' | hr'
    · exact .inr (h.tracked r' hr')
    · exact .inl (congrArg Report.key (List.mem_singleton.mp hr'))

/-- A report that creates its flow. -/
theorem TableAccounts.create {rs : List Report} {ft₀ ft ft' : FlowTrack} {tmp : Flow} {r : Report}
    {t : Timeval} {alloc : Alloc} {p : ℕ} (h : TableAccounts rs ft₀)
    (htable : ft.table = ft₀.table) (hfind : ft.flowFind tmp = none)
    (hcreate : ft.createFlow (tmp.stamp t) alloc = (ft', some p)) (hkey : r.key = tmp.key)
    (hrecord : tmp.IsRecord r.len r.dir) :
    TableAccounts (rs ++ [r]) (ft'.modifyFlow p (firstMonitor r.dir r.monitor)) := by
  have hpointers := h.pointers.of_table htable
  have hflows : ft.flows = ft₀.flows := congrArg Prod.fst htable
  obtain ⟨rfl, h', hperm, -⟩ := hpointers.createFlow hfind hcreate
  set new := ft.createdFlow (tmp.stamp t)
  -- no other flow has the key, so the earlier reports are not about the new one
  have hfresh : ∀ f ∈ ft.flows, f.key ≠ tmp.key := fun f hf heq =>
    find_eq_none hfind f hf (flowCompare_eq_iff.mpr heq.symm)
  have hident : (ft'.modifyFlow ft.nextPtr (firstMonitor r.dir r.monitor)).flows.map Flow.ident =
      ft'.flows.map Flow.ident := by
    rw [FlowTrack.modifyFlow, List.map_map]
    refine List.map_congr_left fun f _ => ?_
    simp only [Function.comp]
    split <;> rfl
  refine h.concat (h'.of_ident hident rfl rfl) ?_ ?_
  · intro f hf
    obtain ⟨f₀, hf₀, rfl⟩ := List.mem_map.mp hf
    rcases List.mem_cons.mp (hperm.subset hf₀) with rfl | hold
    · rw [if_pos (show new.ptr = ft.nextPtr from rfl)]
      refine Flow.Accounts.first (f := new) hkey ?_ hrecord.octets_eq hrecord.packets_eq
      intro r₀ hr₀ heq
      obtain ⟨f, hf, hk⟩ := List.mem_map.mp (h.tracked r₀ hr₀)
      exact hfresh f (hflows ▸ hf) (hk.trans heq)
    · have hlt := hpointers.ptr_lt f₀.ptr (List.mem_map_of_mem hold)
      rw [if_neg (Nat.ne_of_lt hlt)]
      refine (h.accounts f₀ (hflows ▸ hold)).skip fun heq => hfresh f₀ hold ?_
      exact heq.symm.trans hkey
  · intro k
    have hkeys : (ft'.modifyFlow ft.nextPtr (firstMonitor r.dir r.monitor)).flows.map Flow.key =
        ft'.flows.map Flow.key := by
      simpa [List.map_map, Function.comp_def, Flow.ident] using
        congrArg (List.map fun x => x.2.2.2) hident
    rw [hkeys, (hperm.map Flow.key).mem_iff, List.map_cons, List.mem_cons, hkey, hflows]
    rfl

/-- A report about a flow of the table. -/
theorem TableAccounts.update {rs : List Report} {ft₀ ft : FlowTrack} {flow flow' tmp : Flow}
    {r : Report} (h : TableAccounts rs ft₀) (hpointers : PointerInv ft) (hflow : flow ∈ ft₀.flows)
    (hmap : ft.flows = ft₀.flows.map fun f => if f.ptr = flow.ptr then flow' else f)
    (hkey : r.key = flow.key) (hkey' : flow'.key = flow.key)
    (hfiled : Filed r.dir r.monitor { octets := r.len, packets := 1 } flow tmp)
    (htmp : tmp.key = flow.key) (htables : flow'.monitorTables = tmp.monitorTables) :
    TableAccounts (rs ++ [r]) ft := by
  refine h.concat hpointers ?_ ?_
  -- the flow of the report gains it; a flow with another key does not see it
  · intro f hf
    rw [hmap] at hf
    obtain ⟨f₀, hf₀, rfl⟩ := List.mem_map.mp hf
    split
    · refine Flow.Accounts.congr ?_ (hkey'.trans htmp.symm) htables
      exact (h.accounts flow hflow).filed hkey htmp (h.reported flow hflow) hfiled
    · rename_i hne
      refine (h.accounts f₀ hf₀).skip fun heq => hne ?_
      exact congrArg Flow.ptr (h.pointers.eq_of_key hf₀ hflow (heq.symm.trans hkey))
  -- no key is added: the flow stays where it was
  · have hkeys : ft.flows.map Flow.key = ft₀.flows.map Flow.key := by
      rw [hmap, List.map_map]
      refine List.map_congr_left fun f hf => ?_
      by_cases hp : f.ptr = flow.ptr
      · obtain rfl := h.pointers.eq_of_ptr hf hflow hp
        simpa using hkey'
      · simp [hp]
    intro k
    rw [hkeys]
    refine ⟨Or.inr, ?_⟩
    rintro (rfl | hk)
    · exact hkey ▸ List.mem_map_of_mem hflow
    · exact hk

/-- A successful message to a table in which no flow waits for its expiry. -/
theorem TableAccounts.step {rs : List Report} {s s' : Tracker} {c : EmulatorCall}
    (hstep : EmulatorStep s c .ok s') (h : TableAccounts rs s.ft)
    (hdue : ∀ e ∈ s.ft.expiries, e.expiresAt ≠ 0) :
    s'.ft.trackLevel = s.ft.trackLevel ∧
      ∃ r, c.report s.ft = some r ∧ TableAccounts (rs ++ [r]) s'.ft := by
  have hpointers := hstep.pointerInv h.pointers
  cases hstep with
  | @created tmp frag ndx ft p em a ms hrec hfind hcreate hpart haddr hadd =>
    have hlevel := s.ft.trackLevel_counted frag
    obtain ⟨-, -, -, hlevel'⟩ := (h.pointers.of_table (s.ft.table_counted frag)).createFlow
      hfind hcreate
    refine ⟨hlevel'.trans hlevel, _, EmulatorCall.report_eq hrec
      ((EmulatorCall.monitor_eq hpart).trans haddr) hlevel, ?_⟩
    exact h.create (r := ⟨((s.ft.counted frag).maskRecord tmp).key, ndx, a, c.len⟩)
      (s.ft.table_counted frag) hfind hcreate rfl ((EmulatorCall.isRecord hrec).mask _)
  | @ignored tmp frag ndx flow e hrec hfind hexp hzero =>
    -- a packet is only ignored for a flow that waits for its expiry
    obtain ⟨p, -, hfind'⟩ := Option.bind_eq_some_iff.mp hexp
    have hmem := List.mem_of_find?_eq_some hfind'
    have hexpiries : (s.ft.counted frag).expiries = s.ft.expiries :=
      congrArg (fun t => t.2.1) (s.ft.table_counted frag)
    exact absurd hzero (hdue e (hexpiries ▸ hmem))
  | @updated tmp frag ndx flow e em a ms flow' last ft hrec hfind hexp hzero hpart haddr hadd hcount
      hlast hlen hupd =>
    obtain ⟨hflow, hcmp⟩ := find_eq_some hfind
    rw [s.ft.flows_counted frag] at hflow
    set masked := (s.ft.counted frag).maskRecord tmp
    have hrecord : masked.IsRecord c.len ndx := (EmulatorCall.isRecord hrec).mask _
    have hlevel := s.ft.trackLevel_counted frag
    refine ⟨(FlowTrack.trackLevel_flowUpdateExpiry hupd).trans hlevel, _,
      EmulatorCall.report_eq hrec ((EmulatorCall.monitor_eq hpart).trans haddr) hlevel, ?_⟩
    have hmap : ft.flows = s.ft.flows.map fun f =>
        if f.ptr = flow.ptr then c.settle last masked ndx flow' else f := by
      rw [FlowTrack.flows_flowUpdateExpiry hupd, FlowTrack.modifyFlow, s.ft.flows_counted frag]
    have hfiled := filed_countMonitor ((h.accounts flow hflow).number_le ndx) hcount
    have hstat : masked.totals ndx = { octets := c.len, packets := 1 } := by
      simp [Flow.totals, hrecord.octets_eq, hrecord.packets_eq]
    have hid := ident_of_countMonitor hcount
    have hid' := (c.ident_settle last masked ndx flow').trans hid
    exact h.update (r := ⟨masked.key, ndx, a, c.len⟩) hpointers hflow hmap
      (flowCompare_eq_iff.mp hcmp) (congrArg (fun x => x.2.2.2) hid') (hstat ▸ hfiled)
      (congrArg (fun x => x.2.2.2) hid) (c.monitorTables_settle ..)

/-- No flow of a run ever waits for its expiry. -/
def NeverDue (s : Tracker) (cs : List EmulatorCall) : Prop :=
  ∀ pre post t, cs = pre ++ post → runOk s pre = some t → ∀ e ∈ t.ft.expiries, e.expiresAt ≠ 0

/-- No event is due at the start of the run. -/
theorem NeverDue.start {s : Tracker} {cs : List EmulatorCall} (h : NeverDue s cs) :
    ∀ e ∈ s.ft.expiries, e.expiresAt ≠ 0 :=
  h [] cs s rfl rfl

/-- Nor is one behind the first message. -/
theorem NeverDue.tail {s s₁ : Tracker} {c : EmulatorCall} {cs : List EmulatorCall}
    (h : NeverDue s (c :: cs)) (hc : okStep s c = some s₁) : NeverDue s₁ cs := by
  intro pre post t hcs hrun
  refine h (c :: pre) post t (by rw [hcs]; rfl) (runOk_cons.mpr ⟨s₁, hc, hrun⟩)

/-- A run: every message is a report, and the table is the account of all of them. -/
theorem TableAccounts.run {rs : List Report} {u s t : Tracker} {cs : List EmulatorCall}
    (h : TableAccounts rs s.ft) (hlevel : s.ft.trackLevel = u.ft.trackLevel)
    (hrun : runOk s cs = some t) (hdue : NeverDue s cs) :
    (reports u.ft cs).length = cs.length ∧ TableAccounts (rs ++ reports u.ft cs) t.ft := by
  induction cs generalizing s rs with
  | nil =>
    obtain rfl := Option.some.inj hrun
    simpa [reports] using h
  | cons c cs ih =>
    obtain ⟨s₁, hc, hcs⟩ := runOk_cons.mp hrun
    obtain ⟨hlevel₁, r, hr, h₁⟩ := TableAccounts.step
      (processEmulatorPacket_step (okStep_eq_some.mp hc)) h hdue.start
    obtain ⟨hlen, h₂⟩ := ih h₁ (hlevel₁.trans hlevel) hcs (hdue.tail hc)
    have hr₀ : c.report u.ft = some r := by
      unfold EmulatorCall.report at hr ⊢
      rw [FlowTrack.maskRecord_congr hlevel.symm]
      exact hr
    have hcons : reports u.ft (c :: cs) = r :: reports u.ft cs := List.filterMap_cons_some hr₀
    rw [hcons]
    exact ⟨congrArg (· + 1) hlen, by rw [List.append_cons]; exact h₂⟩

/-! ## Conservation -/

/-- The tables of a flow table count every report: the table of every flow and direction holds
every monitor that has reported it once, and its counters are the number and the total length of
the reports of that monitor. -/
def CountsReports (rs : List Report) (ft : FlowTrack) : Prop :=
  ∀ f ∈ ft.flows, ∀ d, (f.slots d).Nodup ∧
    (f.numberOfMonitors d).toNat =
      (((reportsOf f.key rs).filter fun r => r.dir = d).map Report.monitor).dedup.length ∧
    ∀ a, ((f.statOf d a).packets.toNat, (f.statOf d a).octets.toNat) =
      tally (reportsOf f.key rs) d a

/-- No counter of 32 bits has to wrap. -/
def NoWrap (rs : List Report) : Prop :=
  ∀ key d a, (tally (reportsOf key rs) d a).1 < 2 ^ 32 ∧ (tally (reportsOf key rs) d a).2 < 2 ^ 32

/-- The first report about every flow travels in direction `0`. -/
def FirstReportsForward (rs : List Report) : Prop :=
  ∀ pre r post, rs = pre ++ r :: post → (∀ r' ∈ pre, r'.key ≠ r.key) → r.dir = 0

/-- The reports about a flow begin with the first one of the run. -/
theorem exists_first_report {rs rest : List Report} {r : Report}
    {key : ℤ × FlowAddr × FlowAddr × UInt8 × UInt16 × UInt16}
    (h : reportsOf key rs = r :: rest) :
    r.key = key ∧ ∃ pre post, rs = pre ++ r :: post ∧ ∀ r' ∈ pre, r'.key ≠ r.key := by
  have hmem : r ∈ reportsOf key rs := h ▸ List.mem_cons_self
  have hkey := (mem_reportsOf.mp hmem).2
  refine ⟨hkey, ?_⟩
  obtain ⟨pre, post, hrs, hpre, -, -⟩ := List.filter_eq_cons_iff.mp h
  refine ⟨pre, post, hrs, fun r' hr' heq => ?_⟩
  simpa [heq, hkey] using hpre r' hr'

/-- The slots in use are those of the different monitors. -/
theorem Flow.Accounts.number_eq {rs : List Report} {f : Flow} (h : f.Accounts rs) (d : Dir) :
    (f.numberOfMonitors d).toNat =
      (((reportsOf f.key rs).filter fun r => r.dir = d).map Report.monitor).dedup.length := by
  rw [← Flow.length_slots (h.number_le d)]
  refine List.Perm.length_eq
    ((List.perm_ext_iff_of_nodup (h.nodup d) (List.nodup_dedup _)).mpr fun a => ?_)
  rw [h.mem_slots d a]
  simp only [List.mem_dedup, List.mem_map, List.mem_filter, decide_eq_true_eq, and_assoc]

/-- **Conservation per monitor.** After a run of successful messages in which no flow waits for
its expiry, every message is a report, and the tables count all reports if and only if the first
one of every flow travels in direction `0`. -/
theorem monitorAccounts_iff {s t : Tracker} {cs : List EmulatorCall} (hs : s.Empty)
    (hrun : runOk s cs = some t) (hdue : NeverDue s cs) (hwrap : NoWrap (reports s.ft cs)) :
    (reports s.ft cs).length = cs.length ∧
      (CountsReports (reports s.ft cs) t.ft ↔ FirstReportsForward (reports s.ft cs)) := by
  have hinit : TableAccounts [] s.ft := by
    refine ⟨.empty hs.flows_eq hs.expiries_eq, ?_, ?_, fun r hr => nomatch hr⟩
    all_goals
      rw [hs.flows_eq]
      exact fun f hf => nomatch hf
  obtain ⟨hlen, h⟩ := hinit.run (u := s) rfl hrun hdue
  rw [List.nil_append] at h
  refine ⟨hlen, fun hcounts pre r post hrs hpre => ?_, fun hfirst f hf d => ?_⟩
  · -- a first report of direction `1` is missing from the counter of its monitor
    by_contra hdir
    obtain ⟨f, hf, hkey⟩ := List.mem_map.mp (h.tracked r (hrs ▸ by simp))
    have hsplit : reportsOf f.key (reports s.ft cs) = r :: reportsOf f.key post := by
      rw [hrs, reportsOf_append, show reportsOf f.key pre = [] from
        List.filter_eq_nil_iff.mpr fun r' hr' => by simpa [hkey] using hpre r' hr']
      simp [reportsOf, hkey]
    have hcount := congrArg Prod.fst ((hcounts f hf r.dir).2.2 r.monitor)
    rw [(h.accounts f hf).statOf_eq, hsplit] at hcount
    have hmore : (tally (r :: reportsOf f.key post) r.dir r.monitor).1 =
        (tally (reportsOf f.key post) r.dir r.monitor).1 + 1 := by
      simp [tally]
    have hless := Nat.mod_le (tally (reportsOf f.key post) r.dir r.monitor).1 (2 ^ 32)
    simp only [credited, if_neg hdir, statOfTally, UInt32.toNat_ofNat', hmore] at hcount
    omega
  · have hacc := h.accounts f hf
    refine ⟨hacc.nodup d, hacc.number_eq d, fun a => ?_⟩
    have hall : credited (reportsOf f.key (reports s.ft cs)) =
        reportsOf f.key (reports s.ft cs) := by
      cases hsplit : reportsOf f.key (reports s.ft cs) with
      | nil => rfl
      | cons r rest =>
        obtain ⟨-, pre, post, hrs, hpre⟩ := exists_first_report hsplit
        simp only [credited, if_pos (hfirst pre r post hrs hpre)]
    obtain ⟨hpackets, hoctets⟩ := hwrap f.key d a
    rw [hacc.statOf_eq, hall]
    simp only [statOfTally, UInt32.toNat_ofNat', Nat.mod_eq_of_lt hpackets,
      Nat.mod_eq_of_lt hoctets]

/-! ### Two short runs -/

/-- Checking all beginnings of a run. -/
theorem neverDue_of_inits {s : Tracker} {cs : List EmulatorCall}
    (h : ∀ pre ∈ cs.inits, ∀ t ∈ runOk s pre, ∀ e ∈ t.ft.expiries, e.expiresAt ≠ 0) :
    NeverDue s cs := by
  intro pre post t hcs hrun
  exact h pre ((List.mem_inits pre cs).mpr ⟨post, hcs.symm⟩) t hrun

/-- A run that is short of 4 GB cannot wrap a counter. -/
theorem noWrap_of_total {rs : List Report} (hlen : rs.length < 2 ^ 32)
    (hsum : (rs.map fun r => r.len.toNat).sum < 2 ^ 32) : NoWrap rs := by
  intro key d a
  have hsub : ((reportsOf key rs).filter fun r => r.dir = d ∧ r.monitor = a).Sublist rs :=
    List.filter_sublist.trans List.filter_sublist
  exact ⟨Nat.lt_of_le_of_lt hsub.length_le hlen,
    Nat.lt_of_le_of_lt ((hsub.map fun r : Report => r.len.toNat).sum_le_sum fun _ _ => Nat.zero_le _)
      hsum⟩

/-- A message about a TCP packet from 5.6.7.8 to 1.2.3.4. -/
def backwardCall : EmulatorCall where
  pkt := CText.ascii "10.0.0.1#5.6.7.8#1.2.3.4#100#1#2#443#80#2#1#TCP#0##A#0"
  len := 100
  received := ⟨1000, 0⟩

/-- The flow this message creates has counted no packet of its monitor. -/
theorem firstReport_lost :
    ∃ t, runOk {} [backwardCall] = some t ∧ NeverDue {} [backwardCall] ∧
      NoWrap (reports {} [backwardCall]) ∧ ¬ CountsReports (reports {} [backwardCall]) t.ft := by
  obtain ⟨t, hrun, f, hf, hlost⟩ : ∃ t, runOk {} [backwardCall] = some t ∧ ∃ f ∈ t.ft.flows,
      (f.statOf 1 ![10, 0, 0, 1]).packets.toNat ≠
        (tally (reportsOf f.key (reports {} [backwardCall])) 1 ![10, 0, 0, 1]).1 := by
    have hcheck : (runOk {} [backwardCall]).any (fun t => t.ft.flows.any fun f =>
        (f.statOf 1 ![10, 0, 0, 1]).packets.toNat ≠
          (tally (reportsOf f.key (reports {} [backwardCall])) 1 ![10, 0, 0, 1]).1) = true := by
      decide +kernel
    obtain ⟨t, ht, hp⟩ := (Option.any_eq_true _ _).mp hcheck
    exact ⟨t, ht, by simpa using hp⟩
  refine ⟨t, hrun, ?_, ?_, fun hcounts => hlost ?_⟩
  · apply neverDue_of_inits
    decide +kernel
  · refine noWrap_of_total ?_ ?_ <;> decide +kernel
  · exact congrArg Prod.fst ((hcounts f hf 1).2.2 _)

/-- Two reports of one monitor about a packet from 1.2.3.4 to 5.6.7.8. -/
theorem monitorAccounts_iff_forward :
    ∃ t, runOk {} [sampleCall, sampleCall] = some t ∧
      CountsReports (reports {} [sampleCall, sampleCall]) t.ft := by
  have hrun : (runOk {} [sampleCall, sampleCall]).isSome = true := by decide +kernel
  obtain ⟨t, ht⟩ := Option.isSome_iff_exists.mp hrun
  have hdue : NeverDue {} [sampleCall, sampleCall] := by
    apply neverDue_of_inits
    decide +kernel
  have hwrap : NoWrap (reports ({} : Tracker).ft [sampleCall, sampleCall]) := by
    refine noWrap_of_total ?_ ?_ <;> decide +kernel
  refine ⟨t, ht, (monitorAccounts_iff ⟨rfl, rfl, rfl⟩ ht hdue hwrap).2.mpr ?_⟩
  have hall : ∀ r ∈ reports ({} : Tracker).ft [sampleCall, sampleCall], r.dir = 0 := by
    decide +kernel
  exact fun pre r post hrs _ => hall r (mem_of_eq_append hrs)

end Softflowd
