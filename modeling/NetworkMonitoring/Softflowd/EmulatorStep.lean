import NetworkMonitoring.Softflowd.TableOps

/-!
# softflowd — what one emulator message can do

`EmulatorStep s c r s'` lists the ways a call of `process_emulator_packet` can return, with every
test that led there. `processEmulatorPacket_step` says that these are all; the invariants of the
tracker are proved from the list and never open the function again.
-/

namespace Softflowd

open CText ErrorLoops Function InetText OrderedSet

/-- What an update makes of a flow that `countMonitor` has turned into `f`, given the last part of
the message: a packet that another monitor has already reported is not added to the totals. -/
def EmulatorCall.settle (c : EmulatorCall) (last : Text) (tmp : Flow) (ndx : Dir) (f : Flow) :
    Flow :=
  if atoi (last ++ c.uninit.alreadyReceived.drop last.length) = 0 then
    addEmulatorRecord tmp ndx c.received f
  else f

/-- The ways `process_emulator_packet` can return. -/
inductive EmulatorStep (s : Tracker) (c : EmulatorCall) : PpResult → Tracker → Prop where
  /-- The message is not a packet. -/
  | badRecord : c.record = .error .fail →
      EmulatorStep s c .badPacket { s with ft := { s.ft with
        totalPackets := s.ft.totalPackets + 1, badPackets := s.ft.badPackets + 1 } }
  /-- The flow is new, and an allocation fails. -/
  | noMemory {tmp frag ndx ft} : c.record = .ok (tmp, frag, ndx) →
      (s.ft.counted frag).flowFind ((s.ft.counted frag).maskRecord tmp) = none →
      (s.ft.counted frag).createFlow (((s.ft.counted frag).maskRecord tmp).stamp c.received)
        c.alloc = (ft, none) →
      EmulatorStep s c .mallocFail ⟨ft, s.monitors⟩
  /-- The flow is new, and the message names no monitor. -/
  | createdBad {tmp frag ndx ft p} : c.record = .ok (tmp, frag, ndx) →
      (s.ft.counted frag).flowFind ((s.ft.counted frag).maskRecord tmp) = none →
      (s.ft.counted frag).createFlow (((s.ft.counted frag).maskRecord tmp).stamp c.received)
        c.alloc = (ft, some p) →
      EmulatorStep s c .badPacket ⟨ft, s.monitors⟩
  /-- The flow is new. -/
  | created {tmp frag ndx ft p em a ms} : c.record = .ok (tmp, frag, ndx) →
      (s.ft.counted frag).flowFind ((s.ft.counted frag).maskRecord tmp) = none →
      (s.ft.counted frag).createFlow (((s.ft.counted frag).maskRecord tmp).stamp c.received)
        c.alloc = (ft, some p) →
      copyPart 16 c.pkt 0 = .ok em → inetPton em = some a → addMonitor s.monitors em = .ok ms →
      EmulatorStep s c .ok ⟨ft.modifyFlow p (firstMonitor ndx a), ms⟩
  /-- The flow waits for its expiry. -/
  | ignored {tmp frag ndx flow e} : c.record = .ok (tmp, frag, ndx) →
      (s.ft.counted frag).flowFind ((s.ft.counted frag).maskRecord tmp) = some flow →
      (s.ft.counted frag).expiryOf flow = some e → e.expiresAt = 0 →
      EmulatorStep s c .ok { s with ft := s.ft.counted frag }
  /-- The message has no first part. -/
  | updatedBad {tmp frag ndx flow} : c.record = .ok (tmp, frag, ndx) →
      (s.ft.counted frag).flowFind ((s.ft.counted frag).maskRecord tmp) = some flow →
      EmulatorStep s c .badPacket { s with ft := s.ft.counted frag }
  /-- The flow exists, and the monitor's address is no address; it is counted all the same. -/
  | updatedBadMonitor {tmp frag ndx flow em ms} : c.record = .ok (tmp, frag, ndx) →
      (s.ft.counted frag).flowFind ((s.ft.counted frag).maskRecord tmp) = some flow →
      copyPart 16 c.pkt 0 = .ok em → inetPton em = none → addMonitor s.monitors em = .ok ms →
      EmulatorStep s c .badPacket ⟨s.ft.counted frag, ms⟩
  /-- The flow exists, and the message has no last part. -/
  | updatedBadMark {tmp frag ndx flow em a ms flow'} : c.record = .ok (tmp, frag, ndx) →
      (s.ft.counted frag).flowFind ((s.ft.counted frag).maskRecord tmp) = some flow →
      copyPart 16 c.pkt 0 = .ok em → inetPton em = some a → addMonitor s.monitors em = .ok ms →
      countMonitor ndx a ((s.ft.counted frag).maskRecord tmp) flow = .ok flow' →
      EmulatorStep s c .badPacket ⟨(s.ft.counted frag).modifyFlow flow.ptr fun _ => flow', ms⟩
  /-- The flow exists. -/
  | updated {tmp frag ndx flow e em a ms flow' last ft} : c.record = .ok (tmp, frag, ndx) →
      (s.ft.counted frag).flowFind ((s.ft.counted frag).maskRecord tmp) = some flow →
      (s.ft.counted frag).expiryOf flow = some e → e.expiresAt ≠ 0 →
      copyPart 16 c.pkt 0 = .ok em → inetPton em = some a → addMonitor s.monitors em = .ok ms →
      countMonitor ndx a ((s.ft.counted frag).maskRecord tmp) flow = .ok flow' →
      getEmulatorPacketPart c.pkt maxEmulatorMessageParts = .ok last → last.length ≤ 1 →
      ((s.ft.counted frag).modifyFlow flow.ptr fun _ =>
        c.settle last ((s.ft.counted frag).maskRecord tmp) ndx flow').flowUpdateExpiry flow.ptr =
          .ok ft →
      EmulatorStep s c .ok ⟨ft, ms⟩

/-- Filing a packet under a monitor writes to the monitor tables of the flow only. -/
theorem exists_of_countMonitor {ndx : Dir} {a : InAddr} {tmp f f' : Flow}
    (h : countMonitor ndx a tmp f = .ok f') : ∃ adrs stats numbers, f' = { f with
      emulatorMonitorAdr := adrs
      monitorStat := stats
      numberOfMonitors := numbers } := by
  unfold countMonitor at h
  split at h
  · exact ⟨_, _, _, (Except.ok.inj h).symm⟩
  · split at h
    · exact ⟨_, _, _, (Except.ok.inj h).symm⟩
    · cases h

/-- It leaves the identity of the flow alone. -/
theorem ident_of_countMonitor {ndx : Dir} {a : InAddr} {tmp f f' : Flow}
    (h : countMonitor ndx a tmp f = .ok f') : f'.ident = f.ident := by
  obtain ⟨_, _, _, rfl⟩ := exists_of_countMonitor h
  rfl

@[simp]
theorem EmulatorCall.ident_settle (c : EmulatorCall) (last : Text) (tmp : Flow) (ndx : Dir)
    (f : Flow) : (c.settle last tmp ndx f).ident = f.ident := by
  unfold EmulatorCall.settle
  split <;> rfl

/-- Writing a flow twice keeps the second version. -/
theorem FlowTrack.modifyFlow_modifyFlow (ft : FlowTrack) {p : ℕ} {f : Flow} (hf : f.ptr = p)
    (g : Flow → Flow) :
    (ft.modifyFlow p fun _ => f).modifyFlow p g = ft.modifyFlow p fun _ => g f := by
  simp only [FlowTrack.modifyFlow, List.map_map]
  congr 1
  refine List.map_congr_left fun x _ => ?_
  by_cases hx : x.ptr = p
  · simp [hx, hf]
  · simp [hx]

/-- The branch that updates a flow. -/
theorem updateEmulatorFlow_step {s s' : Tracker} {c : EmulatorCall} {r : PpResult} {tmp : Flow}
    {frag : ℤ} {ndx : Dir} {flow : Flow} {e : Expiry} (hrec : c.record = .ok (tmp, frag, ndx))
    (hfind : (s.ft.counted frag).flowFind ((s.ft.counted frag).maskRecord tmp) = some flow)
    (hexp : (s.ft.counted frag).expiryOf flow = some e) (h0 : e.expiresAt ≠ 0)
    (h : updateEmulatorFlow s.monitors (s.ft.counted frag) flow
      ((s.ft.counted frag).maskRecord tmp) ndx c = .ok (r, s')) : EmulatorStep s c r s' := by
  unfold updateEmulatorFlow at h
  -- the ways out, in the order in which the source can take them
  cases hpart : copyPart 16 c.pkt 0 with
  | error stop =>
    cases stop with
    | fault f => simp [hpart] at h
    | fail =>
      obtain ⟨rfl, rfl⟩ : PpResult.badPacket = r ∧ Tracker.mk (s.ft.counted frag) s.monitors = s' := by
        simpa [hpart] using h
      exact .updatedBad hrec hfind
  | ok em =>
    rw [hpart] at h
    obtain ⟨ms, hadd, h⟩ := bind_eq_ok.mp h
    cases haddr : inetPton em with
    | none =>
      obtain ⟨rfl, rfl⟩ : PpResult.badPacket = r ∧ Tracker.mk (s.ft.counted frag) ms = s' := by
        simpa [haddr, pure, Except.pure] using h
      exact .updatedBadMonitor hrec hfind hpart haddr hadd
    | some a =>
      simp only [haddr] at h
      obtain ⟨flow', hcount, h⟩ := bind_eq_ok.mp h
      cases hlast : getEmulatorPacketPart c.pkt maxEmulatorMessageParts with
      | error stop =>
        cases stop with
        | fault f => simp [hlast] at h
        | fail =>
          obtain ⟨rfl, rfl⟩ : PpResult.badPacket = r ∧
              Tracker.mk ((s.ft.counted frag).modifyFlow flow.ptr fun _ => flow') ms = s' := by
            simpa [hlast, pure, Except.pure] using h
          exact .updatedBadMark hrec hfind hpart haddr hadd hcount
      | ok last =>
        simp only [hlast] at h
        split at h
        · cases h
        · rename_i hlen
          obtain ⟨ft, hupd, h⟩ := bind_eq_ok.mp h
          obtain ⟨rfl, rfl⟩ := Prod.mk.inj (Except.ok.inj h)
          -- counting the monitor and adding the record are two updates of one flow
          have hptr : flow'.ptr = flow.ptr := congrArg Prod.fst (ident_of_countMonitor hcount)
          refine .updated hrec hfind hexp h0 hpart haddr hadd hcount hlast (Nat.le_of_not_lt hlen) ?_
          unfold EmulatorCall.settle
          split at hupd
          · rename_i hmark
            rw [FlowTrack.modifyFlow_modifyFlow _ hptr] at hupd
            simpa only [hmark, if_true] using hupd
          · rename_i hmark
            simpa only [hmark, if_false] using hupd

/-- The branch that creates a flow. -/
theorem createEmulatorFlow_step {s s' : Tracker} {c : EmulatorCall} {r : PpResult} {tmp : Flow}
    {frag : ℤ} {ndx : Dir} (hrec : c.record = .ok (tmp, frag, ndx))
    (hfind : (s.ft.counted frag).flowFind ((s.ft.counted frag).maskRecord tmp) = none)
    (h : createEmulatorFlow s.monitors (s.ft.counted frag)
      ((s.ft.counted frag).maskRecord tmp) ndx c = .ok (r, s')) : EmulatorStep s c r s' := by
  unfold createEmulatorFlow at h
  -- without memory the call ends, otherwise the flow is there before the monitor is read
  split at h
  · rename_i ft hcreate
    obtain ⟨rfl, rfl⟩ := Prod.mk.inj (Except.ok.inj h)
    exact .noMemory hrec hfind hcreate
  · rename_i ft p hcreate
    cases hpart : copyPart 16 c.pkt 0 with
    | error stop =>
      cases stop with
      | fault f => simp [hpart] at h
      | fail =>
        obtain ⟨rfl, rfl⟩ : PpResult.badPacket = r ∧ Tracker.mk ft s.monitors = s' := by
          simpa [hpart] using h
        exact .createdBad hrec hfind hcreate
    | ok em =>
      cases haddr : inetPton em with
      | none =>
        obtain ⟨rfl, rfl⟩ : PpResult.badPacket = r ∧ Tracker.mk ft s.monitors = s' := by
          simpa [hpart, haddr] using h
        exact .createdBad hrec hfind hcreate
      | some a =>
        simp only [hpart, haddr] at h
        obtain ⟨ms, hadd, h⟩ := bind_eq_ok.mp h
        obtain ⟨rfl, rfl⟩ := Prod.mk.inj (Except.ok.inj h)
        exact .created hrec hfind hcreate hpart haddr hadd

/-- These are all the ways `process_emulator_packet` can return. -/
theorem processEmulatorPacket_step {s s' : Tracker} {c : EmulatorCall} {r : PpResult}
    (h : processEmulatorPacket s c = .ok (r, s')) : EmulatorStep s c r s' := by
  unfold processEmulatorPacket at h
  split at h
  · cases h
  · cases hrec : c.record with
    | error stop =>
      cases stop with
      | fault f => simp [hrec] at h
      | fail =>
        simp only [hrec] at h
        obtain ⟨rfl, rfl⟩ := Prod.mk.inj (Except.ok.inj h)
        exact .badRecord hrec
    | ok record =>
      obtain ⟨tmp, frag, ndx⟩ := record
      simp only [hrec] at h
      unfold fileEmulatorRecord at h
      -- the flow is new, waits for expiry, or is updated
      cases hfind : (s.ft.counted frag).flowFind ((s.ft.counted frag).maskRecord tmp) with
      | none =>
        simp only [hfind] at h
        exact createEmulatorFlow_step hrec hfind h
      | some flow =>
        cases hexp : (s.ft.counted frag).expiryOf flow with
        | none => simp [hfind, hexp] at h
        | some e =>
          simp only [hfind, hexp] at h
          split at h
          · rename_i h0
            exact updateEmulatorFlow_step hrec hfind hexp h0 h
          · rename_i h0
            obtain ⟨rfl, rfl⟩ := Prod.mk.inj (Except.ok.inj h)
            exact .ignored hrec hfind hexp (not_not.mp h0)

/-! ## The flow table -/

@[simp]
theorem FlowTrack.table_counted (ft : FlowTrack) (frag : ℤ) : (ft.counted frag).table = ft.table := by
  unfold FlowTrack.counted FlowTrack.countFragment
  split <;> rfl

@[simp]
theorem FlowTrack.nextFlowSeq_counted (ft : FlowTrack) (frag : ℤ) :
    (ft.counted frag).nextFlowSeq = ft.nextFlowSeq :=
  congrArg (fun t => t.2.2.2.1) (ft.table_counted frag)

theorem TableInv.counted {n : ℕ} {ft : FlowTrack} (h : TableInv n ft) (frag : ℤ) :
    TableInv n (ft.counted frag) :=
  h.of_table (ft.table_counted frag)

/-- Replacing a flow of the table by one with the same identity keeps the invariant. -/
theorem TableInv.replaceFlow {n : ℕ} {ft : FlowTrack} {f f' : Flow} (h : TableInv n ft)
    (hf : f ∈ ft.flows) (hid : f'.ident = f.ident) :
    TableInv n (ft.modifyFlow f.ptr fun _ => f') := by
  refine h.modifyFlow fun g hg hptr => ?_
  obtain rfl : g = f := List.inj_on_of_nodup_map h.nodup_ptr hg hf hptr
  exact hid

/-- Replacing a flow of the table and rescheduling it. -/
theorem TableInv.replaceFlow_updateExpiry {n : ℕ} {ft ft' : FlowTrack} {f f' : Flow}
    (h : TableInv n ft) (hf : f ∈ ft.flows) (hid : f'.ident = f.ident)
    (hupd : (ft.modifyFlow f.ptr fun _ => f').flowUpdateExpiry f.ptr = .ok ft') :
    ∃ e ∈ ft.expiries, e.flow = f.ptr ∧
      ft' = (ft.modifyFlow f.ptr fun _ => f').rekey e (ft.newExpiry f').1 (ft.newExpiry f').2 := by
  have hptr : f'.ptr = f.ptr := congrArg Prod.fst hid
  have hmem : f' ∈ (ft.modifyFlow f.ptr fun _ => f').flows := TableInv.mem_modifyFlow hf _
  obtain ⟨e, he, hupd', hflow⟩ := (h.replaceFlow hf hid).flowUpdateExpiry hmem
  rw [hptr] at hupd' hflow
  exact ⟨e, he, hflow, Except.ok.inj (hupd.symm.trans hupd')⟩

/-- What is known after the creation of a flow: the allocations have worked. -/
theorem TableInv.createFlow_inv {n : ℕ} {ft ft' : FlowTrack} {tmp : Flow} {t : Timeval}
    {alloc : Alloc} {p : ℕ} (h : TableInv n ft) (hn : n < 2 ^ 64)
    (hfind : ft.flowFind tmp = none)
    (hcreate : ft.createFlow (tmp.stamp t) alloc = (ft', some p)) :
    p = ft.nextPtr ∧ TableInv (n + 1) ft' ∧
      ft'.flows.Perm (ft.createdFlow (tmp.stamp t) :: ft.flows) ∧
      ft'.expiries.Perm (ft.createdExpiry :: ft.expiries) := by
  obtain ⟨ft₁, hcreate₁, h₁, hperm, hpermE⟩ := h.createFlow hn (tmp.stamp t) (find_eq_none hfind)
  have halloc : alloc = {} := by
    rcases alloc with ⟨flow, expiry⟩
    cases flow with
    | false => simp [FlowTrack.createFlow] at hcreate
    | true =>
      cases expiry with
      | false => simp [FlowTrack.createFlow] at hcreate
      | true => rfl
  rw [halloc, hcreate₁] at hcreate
  obtain ⟨rfl, hp⟩ := Prod.mk.inj hcreate
  exact ⟨(Option.some.inj hp).symm, h₁, hperm, hpermE⟩

/-- A message keeps the flow table consistent, unless an allocation fails. -/
theorem EmulatorStep.tableInv {s s' : Tracker} {c : EmulatorCall} {r : PpResult} {n : ℕ}
    (hstep : EmulatorStep s c r s') (h : TableInv n s.ft) (hn : n < 2 ^ 64)
    (hr : r ≠ .mallocFail) : TableInv (Softflowd.created n s.ft s'.ft) s'.ft := by
  -- a flow is created, or the table has the flows it had before
  cases hstep with
  | badRecord =>
    refine TableInv.created_of_eq ?_ rfl
    exact h.of_table rfl
  | noMemory => exact absurd rfl hr
  | createdBad _ hfind hcreate =>
    obtain ⟨-, h', -⟩ := (h.counted _).createFlow_inv hn hfind hcreate
    exact h.created_of_succ h'
  | created _ hfind hcreate =>
    obtain ⟨-, h', -⟩ := (h.counted _).createFlow_inv hn hfind hcreate
    exact h.created_of_succ (h'.modifyFlow fun _ _ _ => rfl)
  | ignored => exact (h.counted _).created_of_eq (s.ft.nextFlowSeq_counted _)
  | updatedBad => exact (h.counted _).created_of_eq (s.ft.nextFlowSeq_counted _)
  | updatedBadMonitor => exact (h.counted _).created_of_eq (s.ft.nextFlowSeq_counted _)
  | updatedBadMark _ hfind _ _ _ hcount =>
    obtain ⟨hflow, -⟩ := find_eq_some hfind
    exact ((h.counted _).replaceFlow hflow (ident_of_countMonitor hcount)).created_of_eq
      (s.ft.nextFlowSeq_counted _)
  | @updated tmp frag ndx flow _ _ _ _ flow' last ft _ hfind _ _ _ _ _ hcount _ _ hupd =>
    obtain ⟨hflow, -⟩ := find_eq_some hfind
    have hid := (c.ident_settle last ((s.ft.counted frag).maskRecord tmp) ndx flow').trans
      (ident_of_countMonitor hcount)
    obtain ⟨e, he, -, rfl⟩ := (h.counted frag).replaceFlow_updateExpiry hflow hid hupd
    exact (((h.counted frag).replaceFlow hflow hid).rekey he _ _).created_of_eq
      (s.ft.nextFlowSeq_counted _)

end Softflowd
