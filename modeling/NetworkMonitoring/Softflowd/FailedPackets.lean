import NetworkMonitoring.Softflowd.FirstReports

/-!
# softflowd — packets that fail

A packet or a message that is rejected, or for which there is no memory, is to leave the flow table
and the monitors as they were. `process_emulator_packet` rejects some messages only after it has
created their flow, counted their monitor or updated the flow's monitor table, and it returns from
there without counting a bad packet. Both functions leave a flow without an expiry event in the
tree when the event cannot be allocated.

## Main results

* `failedPackets_iff`: which calls fail cleanly;
* `failedPacket_newFlow`: a message that is rejected after its flow has been created.
-/

namespace Softflowd

open Bytes CText ErrorLoops InetText OrderedSet

/-! ## Clean failures -/

/-- The two trees and `num_flows` are as they were. -/
structure FlowTrack.SameTable (ft ft' : FlowTrack) : Prop where
  flows : ft'.flows = ft.flows
  expiries : ft'.expiries = ft.expiries
  numFlows : ft'.numFlows = ft.numFlows

/-- A failed message leaves the table and the monitors alone, and a bad one is counted. -/
structure FailsCleanly (s : Tracker) (r : PpResult) (s' : Tracker) : Prop where
  table : r ≠ .ok → s.ft.SameTable s'.ft
  monitors : r ≠ .ok → s'.monitors = s.monitors
  badPackets : r = .badPacket → s'.ft.badPackets = s.ft.badPackets + 1

/-- Whatever goes wrong with a message goes wrong before something is changed: a flow is started
when there is memory for all of it, or none, and the message names a monitor; a flow is updated when
the message also has a last part. -/
def EmulatorCall.FailsEarly (c : EmulatorCall) (ft : FlowTrack) : Prop :=
  match c.record with
  | .error _ => True
  | .ok (tmp, _, _) =>
    match ft.flowFind (ft.maskRecord tmp) with
    | none => c.alloc.flow = false ∨ c.alloc.expiry = true ∧ c.monitor.isSome
    | some f => ft.due f = true ∨ c.monitor.isSome ∧
        ∃ last, getEmulatorPacketPart c.pkt maxEmulatorMessageParts = .ok last

/-- For a packet that starts a flow there is memory for all of it, or none. -/
def FlowTrack.AllocatesBoth (ft : FlowTrack) (alloc : Alloc) (m : Mem) (af : ℤ)
    (caplen len : UInt32) : Prop :=
  ∀ tmp frag, packetRecord m af caplen len = some (tmp, frag) →
    ft.flowFind (ft.maskRecord tmp) = none → alloc.flow = true → alloc.expiry = true

theorem failsCleanly_ok (s s' : Tracker) : FailsCleanly s .ok s' :=
  ⟨fun h => absurd rfl h, fun h => absurd rfl h, fun h => nomatch h⟩

/-- A counter that has been increased is another number. -/
theorem ne_add_one (x : UInt64) : x ≠ x + 1 := by
  intro h
  have hsub := congrArg (· - x) h
  simp at hsub

/-- A message names a monitor. -/
theorem EmulatorCall.monitor_isSome {c : EmulatorCall} :
    c.monitor.isSome ↔ ∃ em a, copyPart 16 c.pkt 0 = .ok em ∧ inetPton em = some a := by
  cases hcopy : copyPart 16 c.pkt 0 with
  | error e => simp [EmulatorCall.monitor, hcopy, Except.toOption]
  | ok em =>
    rw [EmulatorCall.monitor_eq hcopy, Option.isSome_iff_exists]
    constructor
    · rintro ⟨a, ha⟩
      exact ⟨em, a, rfl, ha⟩
    · rintro ⟨em', a, hem, ha⟩
      exact ⟨a, Except.ok.inj hem ▸ ha⟩

/-! ## Creating a flow -/

variable {ft ft' : FlowTrack} {tmp : Flow} {alloc : Alloc}

theorem createFlow_of_noFlow (h : alloc.flow = false) : ft.createFlow tmp alloc = (ft, none) := by
  unfold FlowTrack.createFlow
  rw [h]
  rfl

/-- Once the first allocation has worked, the flow is in the table. -/
theorem createFlow_length (h : alloc.flow = true) (hkey : ∀ f ∈ ft.flows, flowCompare tmp f ≠ .eq) :
    (ft.createFlow tmp alloc).1.flows.length = ft.flows.length + 1 := by
  obtain ⟨flow, expiry⟩ := alloc
  obtain rfl : flow = true := h
  have hperm := fun f : Flow => fun hf : ∀ g ∈ ft.flows, flowCompare f g ≠ .eq =>
    (insert_perm hf).length_eq
  cases expiry with
  | false => exact hperm { tmp with ptr := _, flowSeq := _, expiry := none } hkey
  | true => exact hperm { tmp with ptr := _, flowSeq := _, expiry := some _ } hkey

/-- The second component tells whether both allocations have worked. -/
theorem createFlow_isSome (ft : FlowTrack) (tmp : Flow) (alloc : Alloc) :
    (ft.createFlow tmp alloc).2.isSome = (alloc.flow && alloc.expiry) := by
  obtain ⟨flow, expiry⟩ := alloc
  cases flow <;> cases expiry <;> rfl

theorem SameTable_of_length (h : ft'.flows.length = ft.flows.length + 1) : ¬ ft.SameTable ft' := by
  intro hsame
  rw [hsame.flows] at h
  omega

/-! ## Messages -/

variable {s s' : Tracker} {c : EmulatorCall} {r : PpResult} {frag : ℤ} {ndx : Dir}

/-- A flow is started when there is memory for it and the message names a monitor. -/
theorem createEmulatorFlow_ok {ms : Monitors} (hmonitor : c.monitor.isSome)
    (halloc : c.alloc.flow = true) (halloc' : c.alloc.expiry = true)
    (hcall : createEmulatorFlow ms ft tmp ndx c = .ok (r, s')) : r = .ok := by
  obtain ⟨em, a, hpart, haddr⟩ := EmulatorCall.monitor_isSome.mp hmonitor
  have hsome := createFlow_isSome ft (tmp.stamp c.received) c.alloc
  unfold createEmulatorFlow at hcall
  split at hcall
  · rename_i ft₁ hcreate
    rw [hcreate, halloc, halloc'] at hsome
    cases hsome
  · rw [hpart] at hcall
    dsimp only at hcall
    rw [haddr] at hcall
    obtain ⟨ms', -, hret⟩ := bind_eq_ok.mp hcall
    exact (Prod.mk.inj (Except.ok.inj hret)).1.symm

/-- A flow is updated when the message names a monitor and has a last part. -/
theorem updateEmulatorFlow_ok {ms : Monitors} {flow : Flow} {last : Text}
    (hmonitor : c.monitor.isSome)
    (hlast : getEmulatorPacketPart c.pkt maxEmulatorMessageParts = .ok last)
    (hcall : updateEmulatorFlow ms ft flow tmp ndx c = .ok (r, s')) : r = .ok := by
  obtain ⟨em, a, hpart, haddr⟩ := EmulatorCall.monitor_isSome.mp hmonitor
  unfold updateEmulatorFlow at hcall
  rw [hpart] at hcall
  obtain ⟨ms', -, hcall⟩ := bind_eq_ok.mp hcall
  rw [haddr] at hcall
  obtain ⟨flow', -, hcall⟩ := bind_eq_ok.mp hcall
  rw [hlast] at hcall
  dsimp only at hcall
  split at hcall
  · cases hcall
  · obtain ⟨ft₁, -, hret⟩ := bind_eq_ok.mp hcall
    exact (Prod.mk.inj (Except.ok.inj hret)).1.symm

/-- A call whose message is a packet files its record. -/
theorem processEmulatorPacket_file (hrec : c.record = .ok (tmp, frag, ndx))
    (hcall : processEmulatorPacket s c = .ok (r, s')) :
    fileEmulatorRecord s.monitors (s.ft.counted frag) (s.ft.maskRecord tmp) ndx c =
      .ok (r, s') := by
  unfold processEmulatorPacket at hcall
  split at hcall
  · cases hcall
  · simpa only [hrec, FlowTrack.maskRecord_counted] using hcall

/-- A message about a new flow. -/
theorem ok_of_newFlow (hrec : c.record = .ok (tmp, frag, ndx))
    (hcall : processEmulatorPacket s c = .ok (r, s'))
    (hfind : s.ft.flowFind (s.ft.maskRecord tmp) = none) (hmonitor : c.monitor.isSome)
    (halloc : c.alloc.flow = true) (halloc' : c.alloc.expiry = true) : r = .ok := by
  have hfile := processEmulatorPacket_file hrec hcall
  unfold fileEmulatorRecord at hfile
  rw [FlowTrack.flowFind_counted, hfind] at hfile
  exact createEmulatorFlow_ok hmonitor halloc halloc' hfile

/-- A message about a flow of the table. -/
theorem ok_of_knownFlow {flow : Flow} (hrec : c.record = .ok (tmp, frag, ndx))
    (hcall : processEmulatorPacket s c = .ok (r, s'))
    (hfind : s.ft.flowFind (s.ft.maskRecord tmp) = some flow)
    (hcond : s.ft.due flow = true ∨ c.monitor.isSome ∧
      ∃ last, getEmulatorPacketPart c.pkt maxEmulatorMessageParts = .ok last) : r = .ok := by
  have hfile := processEmulatorPacket_file hrec hcall
  unfold fileEmulatorRecord at hfile
  rw [FlowTrack.flowFind_counted, hfind] at hfile
  dsimp only at hfile
  rw [FlowTrack.expiryOf_counted] at hfile
  cases hexp : s.ft.expiryOf flow with
  | none =>
    rw [hexp] at hfile
    cases hfile
  | some e =>
    rw [hexp] at hfile
    dsimp only at hfile
    split at hfile
    · rename_i hne
      rcases hcond with hdue | ⟨hmonitor, last, hlast⟩
      · simp [FlowTrack.due, hexp, hne] at hdue
      · exact updateEmulatorFlow_ok hmonitor hlast hfile
    · exact (Prod.mk.inj (Except.ok.inj hfile)).1.symm

theorem FlowTrack.sameTable_counted (ft : FlowTrack) (frag : ℤ) : ft.SameTable (ft.counted frag) := by
  have htable := ft.table_counted frag
  simp only [FlowTrack.table, Prod.mk.injEq] at htable
  exact ⟨htable.1, htable.2.1, htable.2.2.1⟩

@[simp]
theorem FlowTrack.badPackets_counted (ft : FlowTrack) (frag : ℤ) :
    (ft.counted frag).badPackets = ft.badPackets := by
  unfold FlowTrack.counted FlowTrack.countFragment
  split <;> rfl

/-- A message that has started a flow in the tree has not failed cleanly. -/
theorem not_failsCleanly_of_length {r : PpResult} (hr : r ≠ .ok)
    (h : s'.ft.flows.length = s.ft.flows.length + 1) : ¬ FailsCleanly s r s' :=
  fun hclean => SameTable_of_length h (hclean.table hr)

/-- Neither has one that is bad and has not been counted. -/
theorem not_failsCleanly_of_badPackets (h : s'.ft.badPackets = s.ft.badPackets) :
    ¬ FailsCleanly s .badPacket s' :=
  fun hclean => ne_add_one _ (h.symm.trans (hclean.badPackets rfl))

/-- Creating a flow after the packet has been counted. -/
theorem counted_createFlow {ft₁ : FlowTrack} {o : Option ℕ}
    (hkey : ∀ f ∈ ft.flows, flowCompare tmp f ≠ .eq)
    (hcreate : (ft.counted frag).createFlow tmp alloc = (ft₁, o)) :
    o.isSome = (alloc.flow && alloc.expiry) ∧ (alloc.flow = false → ft.SameTable ft₁) ∧
      (alloc.flow = true → ft₁.flows.length = ft.flows.length + 1) := by
  have hflows := (ft.sameTable_counted frag).flows
  have hsome := createFlow_isSome (ft.counted frag) tmp alloc
  rw [hcreate] at hsome
  refine ⟨hsome, fun hno => ?_, fun hyes => ?_⟩
  · rw [createFlow_of_noFlow hno] at hcreate
    obtain rfl := (Prod.mk.inj hcreate).1
    exact ft.sameTable_counted frag
  · have hkey' : ∀ f ∈ (ft.counted frag).flows, flowCompare tmp f ≠ .eq := hflows ▸ hkey
    have hlen := createFlow_length hyes hkey'
    rwa [hcreate, hflows] at hlen

/-- The time of a packet is not part of the key of its flow. -/
theorem ne_stamp (hfind : ft.flowFind tmp = none) (t : Timeval) :
    ∀ f ∈ ft.flows, flowCompare (tmp.stamp t) f ≠ .eq :=
  find_eq_none hfind

/-- **Failed messages.** A message that fails does so cleanly exactly when it fails early. -/
theorem failsCleanly_iff (hcall : processEmulatorPacket s c = .ok (r, s')) :
    FailsCleanly s r s' ↔ c.FailsEarly s.ft := by
  -- a message about a flow of the table that is bad has gone wrong late
  have hknown : ∀ {tmp frag ndx flow}, c.record = .ok (tmp, frag, ndx) →
      (s.ft.counted frag).flowFind ((s.ft.counted frag).maskRecord tmp) = some flow →
      r = .badPacket → ¬ c.FailsEarly s.ft := by
    intro tmp frag ndx flow hrec hfind hbad hearly
    rw [FlowTrack.flowFind_counted, FlowTrack.maskRecord_counted] at hfind
    simp only [EmulatorCall.FailsEarly, hrec, hfind] at hearly
    cases (ok_of_knownFlow hrec hcall hfind hearly).symm.trans hbad
  have hstep := processEmulatorPacket_step hcall
  cases hstep with
  | badRecord hrec =>
    refine iff_of_true ⟨fun _ => ⟨rfl, rfl, rfl⟩, fun _ => rfl, fun _ => rfl⟩ ?_
    simp only [EmulatorCall.FailsEarly, hrec]
  | @noMemory tmp frag ndx ft₁ hrec hfind hcreate =>
    rw [FlowTrack.flowFind_counted, FlowTrack.maskRecord_counted] at hfind
    rw [FlowTrack.maskRecord_counted] at hcreate
    obtain ⟨hsome, hno, hyes⟩ := counted_createFlow (ne_stamp hfind c.received) hcreate
    simp only [EmulatorCall.FailsEarly, hrec, hfind]
    -- the flow, or only its expiry event, could not be allocated
    cases halloc : c.alloc.flow with
    | false =>
      exact iff_of_true ⟨fun _ => hno halloc, fun _ => rfl, fun h => nomatch h⟩ (.inl rfl)
    | true =>
      have hexpiry : c.alloc.expiry = false := by simpa [halloc] using hsome.symm
      exact iff_of_false (not_failsCleanly_of_length (by decide) (hyes halloc)) (by simp [hexpiry])
  | @createdBad tmp frag ndx ft₁ p hrec hfind hcreate =>
    rw [FlowTrack.flowFind_counted, FlowTrack.maskRecord_counted] at hfind
    rw [FlowTrack.maskRecord_counted] at hcreate
    obtain ⟨hsome, -, hyes⟩ := counted_createFlow (ne_stamp hfind c.received) hcreate
    obtain ⟨halloc, halloc'⟩ := (Bool.and_eq_true _ _).mp hsome.symm
    -- `return PP_BAD_PACKET` behind the label leaves the new flow in the tree
    refine iff_of_false (not_failsCleanly_of_length (by decide) (hyes halloc)) ?_
    simp only [EmulatorCall.FailsEarly, hrec, hfind, halloc, halloc']
    rintro (hnone | ⟨-, hmonitor⟩)
    · cases hnone
    · cases ok_of_newFlow hrec hcall hfind hmonitor halloc halloc'
  | @created tmp frag ndx ft₁ p em a ms hrec hfind hcreate hpart haddr hadd =>
    rw [FlowTrack.flowFind_counted, FlowTrack.maskRecord_counted] at hfind
    rw [FlowTrack.maskRecord_counted] at hcreate
    obtain ⟨hsome, -, -⟩ := counted_createFlow (ne_stamp hfind c.received) hcreate
    obtain ⟨-, halloc'⟩ := (Bool.and_eq_true _ _).mp hsome.symm
    refine iff_of_true (failsCleanly_ok _ _) ?_
    simp only [EmulatorCall.FailsEarly, hrec, hfind]
    exact .inr ⟨halloc', EmulatorCall.monitor_isSome.mpr ⟨em, a, hpart, haddr⟩⟩
  | @ignored tmp frag ndx flow e hrec hfind hexp h0 =>
    rw [FlowTrack.flowFind_counted, FlowTrack.maskRecord_counted] at hfind
    rw [FlowTrack.expiryOf_counted] at hexp
    refine iff_of_true (failsCleanly_ok _ _) ?_
    simp only [EmulatorCall.FailsEarly, hrec, hfind]
    exact .inl (by simp [FlowTrack.due, hexp, h0])
  | updatedBad hrec hfind =>
    exact iff_of_false (not_failsCleanly_of_badPackets (s.ft.badPackets_counted _))
      (hknown hrec hfind rfl)
  | updatedBadMonitor hrec hfind =>
    exact iff_of_false (not_failsCleanly_of_badPackets (s.ft.badPackets_counted _))
      (hknown hrec hfind rfl)
  | updatedBadMark hrec hfind =>
    exact iff_of_false (not_failsCleanly_of_badPackets (s.ft.badPackets_counted _))
      (hknown hrec hfind rfl)
  | @updated tmp frag ndx flow e em a ms flow' last ft hrec hfind _ _ hpart haddr _ _ hlast =>
    rw [FlowTrack.flowFind_counted, FlowTrack.maskRecord_counted] at hfind
    refine iff_of_true (failsCleanly_ok _ _) ?_
    simp only [EmulatorCall.FailsEarly, hrec, hfind]
    exact .inr ⟨EmulatorCall.monitor_isSome.mpr ⟨em, a, hpart, haddr⟩, last, hlast⟩

/-! ## Packets -/

/-- **Packets without memory.** When there is no memory for a packet, the table stays as it is
exactly when there is memory for all of a flow, or none. -/
theorem mallocFail_sameTable_iff {m : Mem} {af : ℤ} {caplen len : UInt32} {received : Timeval}
    (hcall : ft.processPacket alloc m af caplen len received = .ok (r, ft')) :
    (r = .mallocFail → ft.SameTable ft') ↔ ft.AllocatesBoth alloc m af caplen len := by
  unfold FlowTrack.processPacket at hcall
  dsimp only at hcall
  unfold FlowTrack.AllocatesBoth
  cases hrec : FlowTrack.packetRecord m af caplen len with
  | none =>
    rw [hrec] at hcall
    obtain ⟨rfl, -⟩ := Prod.mk.inj (Except.ok.inj hcall)
    exact iff_of_true (fun h => nomatch h) fun _ _ h => nomatch h
  | some record =>
    obtain ⟨tmp, frag⟩ := record
    have hcounted : { ft with totalPackets := ft.totalPackets + 1 }.countFragment frag =
        ft.counted (if frag then 1 else 0) := by
      cases frag <;> rfl
    rw [hrec] at hcall
    dsimp only at hcall
    rw [hcounted, FlowTrack.maskRecord_counted] at hcall
    unfold FlowTrack.fileRecord at hcall
    rw [FlowTrack.flowFind_counted] at hcall
    have hcond : (∀ tmp' frag', some (tmp, frag) = some (tmp', frag') →
        ft.flowFind (ft.maskRecord tmp') = none → alloc.flow = true → alloc.expiry = true) ↔
        (ft.flowFind (ft.maskRecord tmp) = none → alloc.flow = true → alloc.expiry = true) :=
      ⟨fun h => h tmp frag rfl, by rintro h _ _ ⟨⟩; exact h⟩
    rw [hcond]
    cases hfind : ft.flowFind (ft.maskRecord tmp) with
    | some flow =>
      rw [hfind] at hcall
      obtain ⟨ft₁, -, hret⟩ := bind_eq_ok.mp hcall
      obtain ⟨rfl, -⟩ := Prod.mk.inj (Except.ok.inj hret)
      exact iff_of_true (fun h => nomatch h) fun h => nomatch h
    | none =>
      rw [hfind] at hcall
      dsimp only at hcall
      have hkey : ∀ f ∈ ft.flows,
          flowCompare { ft.maskRecord tmp with flowStart := received } f ≠ .eq :=
        find_eq_none hfind
      split at hcall
      · rename_i ft₁ hcreate
        obtain ⟨rfl, rfl⟩ := Prod.mk.inj (Except.ok.inj hcall)
        obtain ⟨hsome, hno, hyes⟩ := counted_createFlow hkey hcreate
        -- a flow without an event stays in the tree when only the event cannot be allocated
        cases halloc : alloc.flow with
        | false => exact iff_of_true (fun _ => hno halloc) fun _ h => nomatch h
        | true =>
          have hexpiry : alloc.expiry = false := by simpa [halloc] using hsome.symm
          exact iff_of_false (fun h => SameTable_of_length (hyes halloc) (h rfl)) (by simp [hexpiry])
      · rename_i ft₁ p hcreate
        obtain ⟨ft₂, -, hret⟩ := bind_eq_ok.mp hcall
        obtain ⟨rfl, -⟩ := Prod.mk.inj (Except.ok.inj hret)
        obtain ⟨hsome, -, -⟩ := counted_createFlow hkey hcreate
        obtain ⟨-, hexpiry⟩ := (Bool.and_eq_true _ _).mp hsome.symm
        exact iff_of_true (fun h => nomatch h) fun _ _ => hexpiry

/-- **Failed packets.** Exactly the messages that fail early leave the flow table, the monitors and
the flows' counters as they were, and are counted when they are bad; and a packet without memory
leaves the table as it was exactly when there is memory for all of a flow, or none. -/
theorem failedPackets_iff (s s' : Tracker) (c : EmulatorCall) (r : PpResult) (ft ft' : FlowTrack)
    (alloc : Alloc) (m : Mem) (af : ℤ) (caplen len : UInt32) (received : Timeval) (r' : PpResult) :
    (processEmulatorPacket s c = .ok (r, s') → (FailsCleanly s r s' ↔ c.FailsEarly s.ft)) ∧
    (ft.processPacket alloc m af caplen len received = .ok (r', ft') →
      ((r' = .mallocFail → ft.SameTable ft') ↔ ft.AllocatesBoth alloc m af caplen len)) :=
  ⟨failsCleanly_iff, mallocFail_sameTable_iff⟩

/-- A message for whose flow there is no memory. -/
def noMemoryCall : EmulatorCall := { sampleCall with alloc := { flow := false } }

/-- It leaves everything as it was. -/
theorem failedPackets_noMemory :
    ∃ s', processEmulatorPacket {} noMemoryCall = .ok (.mallocFail, s') ∧
      FailsCleanly {} .mallocFail s' := by
  have hcheck : (processEmulatorPacket {} noMemoryCall).toOption.any
      (fun x => x.1 = .mallocFail) = true := by
    decide +kernel
  obtain ⟨⟨r, s'⟩, hcall, hr⟩ := exists_of_any hcheck
  obtain rfl : r = .mallocFail := of_decide_eq_true hr
  have hiff := (failedPackets_iff {} s' noMemoryCall .mallocFail {} {} {} (fun _ => 0) afInet 0 0 {}
    .badPacket).1 hcall
  refine ⟨s', hcall, hiff.mpr ?_⟩
  unfold EmulatorCall.FailsEarly
  split
  · trivial
  · exact .inl rfl

/-- A message whose first part is no address. -/
def badMonitorCall : EmulatorCall where
  pkt := ascii "x#1.2.3.4#5.6.7.8#100#1#2#80#443#1#2#TCP#0##A#0"
  len := 100

/-- The message is rejected after its flow has been created, and it is not counted. -/
theorem failedPacket_newFlow :
    ∃ s', processEmulatorPacket {} badMonitorCall = .ok (.badPacket, s') ∧
      s'.ft.flows.length = 1 ∧ s'.ft.badPackets = 0 ∧ ¬ FailsCleanly {} .badPacket s' := by
  have hcheck : (processEmulatorPacket {} badMonitorCall).toOption.any (fun x =>
      x.1 = .badPacket ∧ x.2.ft.flows.length = 1 ∧ x.2.ft.badPackets = 0) = true := by
    decide +kernel
  obtain ⟨⟨r, s'⟩, hcall, hp⟩ := exists_of_any hcheck
  obtain ⟨rfl, hlen, hbad⟩ := of_decide_eq_true hp
  exact ⟨s', hcall, hlen, hbad, not_failsCleanly_of_length (by decide) hlen⟩

end Softflowd
